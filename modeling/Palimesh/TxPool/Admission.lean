import Palimesh.Collections.DelimitedText
import Palimesh.TxPool.Consistency

namespace Palimesh.TxPool

open Collections List InsertionMap

/-- What `PersistentChainEngine.addRawTx` works with. A read that answers `none` has failed. -/
structure Admission where
  mempool : Mempool
  chainId : Option Int
  isUsed : String → Option Bool
  getNonce : Hex → Option Int
  getBalance : Hex → Option Int

namespace Admission

def precheck (e : Admission) (tx : Transaction) : Except TxError Unit :=
  let expectedChainId := e.chainId.getD 18780
  if tx.chainId.any (· ≠ expectedChainId) then .error (.wrongChainId expectedChainId tx.chainId)
  else if tx.recipient.isNone ∧ maxInitcodeSize < tx.data.length then .error (.initcodeTooLarge tx.data.length)
  else match validateTxStructure tx with
    | .error refused => .error refused
    | .ok sender =>
      match e.isUsed ("tx:" ++ tx.hash) with
      | none => .error .stateUnavailable
      | some true => .error .alreadyConfirmed
      | some false =>
        match e.getNonce (toLowerCase sender) with
        | none => .error .stateUnavailable
        | some onchainNonce =>
          if tx.nonce < onchainNonce then .error (.nonceTooLow tx.nonce onchainNonce) else .ok ()

def upfrontCost (tx : MempoolTx) : Int :=
  let effectiveGasPrice := if 0 < tx.maxFeePerGas then tx.maxFeePerGas else tx.gasPrice
  effectiveGasPrice * tx.gasLimit + tx.value

/-- The balance check comes after the insertion; the newcomer alone is taken out again. -/
def checkFunds (e : Admission) (tx : MempoolTx) (m : Mempool) : Except TxError MempoolTx × Mempool :=
  if 0 < upfrontCost tx then
    match e.getBalance tx.sender with
    | none => (.error .stateUnavailable, m)
    | some senderBalance =>
      if senderBalance < upfrontCost tx then
        (.error (.insufficientFunds tx.sender senderBalance (upfrontCost tx)), m.removeTx tx.hash)
      else (.ok tx, m)
  else (.ok tx, m)

def addRawTx (decoder : Decoder) (e : Admission) (rawTx : Hex) (now : Int) : Except TxError MempoolTx × Mempool :=
  match decoder.decode rawTx with
  | none => (.error .undecodable, e.mempool)
  | some decoded =>
    match e.precheck decoded with
    | .error refused => (.error refused, e.mempool)
    | .ok () =>
      match e.mempool.addTx rawTx decoded now with
      | (.error refused, m) => (.error refused, m)
      | (.ok tx, m) => e.checkFunds tx m

end Admission

variable {rawTx : Hex} {now : Int} {m' : Mempool}

namespace Mempool

variable {m : Mempool} {decoder : Decoder} {hash : Hex} {item : MempoolTx}

def pooled (m : Mempool) (hash : Hex) : Bool := m.txs.has hash

@[simp] theorem pooled_removeTx (m : Mempool) (hash other : Hex) :
    (m.removeTx hash).pooled other = (decide (other ≠ hash) && m.pooled other) := by
  unfold pooled InsertionMap.has
  by_cases here : other = hash <;> simp [here]

@[simp] theorem pooled_insert (m : Mempool) (item : MempoolTx) (other : Hex) :
    (m.insert item).pooled other = (decide (other = item.hash) || m.pooled other) := by
  unfold pooled InsertionMap.has insert
  by_cases here : other = item.hash <;> simp [here]

theorem pooled_removeAll (m : Mempool) (hashes : List Hex) (other : Hex) :
    (m.removeAll hashes).pooled other = (decide (other ∉ hashes) && m.pooled other) := by
  induction hashes generalizing m with
  | nil => simp [removeAll]
  | cons hash hashes ih =>
    have rest := ih (m.removeTx hash)
    show ((m.removeTx hash).removeAll hashes).pooled other = _
    rw [rest]
    by_cases here : other = hash <;> simp [here]

theorem size_removeTx_le (m : Mempool) (hash : Hex) : (m.removeTx hash).txs.size ≤ m.txs.size := by
  rcases removeTx_cases m hash with same | ⟨_, _, removed⟩
  · rw [same]
  · rw [removed]
    exact size_delete_le m.txs hash

theorem size_removeAll_le (m : Mempool) (hashes : List Hex) : (m.removeAll hashes).txs.size ≤ m.txs.size :=
  removeAll_keeps (fun n => n.txs.size ≤ m.txs.size) (fun n hash earlier => (size_removeTx_le n hash).trans earlier)
    hashes (le_refl _)

theorem size_removeTx_lt {tx : MempoolTx} (found : m.txs.get? hash = some tx) :
    (m.removeTx hash).txs.size < m.txs.size := by
  unfold removeTx
  rw [found]
  exact size_delete_lt found

theorem cheapest_pooled (indexed : m.Indexed) (member : hash ∈ m.cheapest) :
    ∃ tx, m.txs.get? hash = some tx := by
  obtain ⟨tx, taken, rfl⟩ := List.mem_map.mp member
  have selected := (partialSelect_perm _ _ _).subset (mem_of_mem_take taken)
  obtain ⟨⟨key, value⟩, entry, rfl⟩ := List.mem_map.mp selected
  have found := get?_eq_of_mem entry
  rw [← indexed.keyed key value found] at found
  exact ⟨value, found⟩

theorem cheapest_length (m : Mempool) : m.cheapest.length = min m.cfg.evictionBatchSize m.txs.size := by
  have kept := (partialSelect_perm (m.txs.entries.map Prod.snd).toArray
    (min m.cfg.evictionBatchSize (m.txs.entries.map Prod.snd).length : Nat) compareFee).length_eq
  unfold cheapest
  simp only [length_map, length_take]
  simp only [length_map] at kept
  rw [kept]
  show min (min m.cfg.evictionBatchSize m.txs.size) m.txs.size = min m.cfg.evictionBatchSize m.txs.size
  omega

theorem size_evictLowestFee (indexed : m.Indexed) (batch : 0 < m.cfg.evictionBatchSize) (some_ : 0 < m.txs.size) :
    m.evictLowestFee.txs.size < m.txs.size ∧ ∃ hash ∈ m.cheapest, m.pooled hash = true := by
  have counted := cheapest_length m
  cases victims : m.cheapest with
  | nil =>
    rw [victims, length_nil] at counted
    omega
  | cons hash rest =>
    have first : hash ∈ m.cheapest := by rw [victims]; exact mem_cons_self
    obtain ⟨tx, found⟩ := cheapest_pooled indexed first
    constructor
    · unfold evictLowestFee
      rw [victims]
      exact (size_removeAll_le (m.removeTx hash) rest).trans_lt (size_removeTx_lt found)
    · exact ⟨hash, mem_cons_self, by simp [pooled, InsertionMap.has, found]⟩

def accepts (m : Mempool) (item : MempoolTx) : Bool :=
  match m.existing item with
  | some (_, old) => decide (m.minPrice old ≤ item.gasPrice)
  | none =>
    !(decide (m.cfg.maxPerSender ≤ m.senderCount item.sender) && (m.bySender.get? item.sender).isSome) &&
      (decide (m.txs.size < m.cfg.maxSize) || decide (0 < m.cfg.evictionBatchSize) && decide (0 < m.cfg.maxSize))

theorem sender_of_nonceKey {tx : MempoolTx} (same : tx.nonceKey = item.nonceKey) : tx.sender = item.sender := by
  -- The key keeps the sender: the nonce after the last colon has none.
  have texts := congrArg String.toList same
  have colon : ":".toList = [':'] := by decide
  simp only [MempoolTx.nonceKey, nonceKey, String.toList_append, colon, append_assoc,
    singleton_append] at texts
  have split := split_at_last (notMem_nat (by decide) tx.nonce) (notMem_nat (by decide) item.nonce) texts
  exact String.toList_injective split.1

theorem existing_some {old : MempoolTx} (found : m.existing item = some (hash, old)) :
    m.byNonce.get? item.nonceKey = some hash ∧ m.txs.get? hash = some old := by
  unfold existing at found
  simp only [Option.bind_eq_bind, Option.pure_def, Option.bind_eq_some_iff, Option.some.injEq, Prod.mk.injEq] at found
  obtain ⟨stored, kept, _, present, rfl, rfl⟩ := found
  exact ⟨(Option.filter_eq_some_iff.mp kept).1, present⟩

theorem place_after_removal (consistent : m.Consistent decoder) {old : MempoolTx}
    (found : m.existing item = some (hash, old)) :
    (m.removeTx hash).place item = (.ok item, (m.removeTx hash).insert item) := by
  obtain ⟨taken, present⟩ := existing_some found
  obtain ⟨tx, present', numbered⟩ := (consistent.indexed.nonce _ _).mp taken
  have sameTx : tx = old := Option.some.inj (present'.symm.trans present)
  have sent : old.sender = item.sender := sender_of_nonceKey (sameTx ▸ numbered)
  have listed : hash ∈ hashesOf m.bySender item.sender := (consistent.indexed.sender _ _).mpr ⟨old, present, sent⟩
  have fewer : (m.removeTx hash).senderCount item.sender < m.cfg.maxPerSender := by
    rw [senderCount_eq]
    have removed : hashesOf (m.removeTx hash).bySender item.sender = (hashesOf m.bySender item.sender).erase hash := by
      unfold removeTx
      rw [present]
      exact (hashesOf_unlistSender _ _ _ _).trans (if_pos sent.symm)
    rw [removed]
    exact (Finset.card_erase_lt_of_mem listed).trans_le (consistent.limited.perSender item.sender)
  have smaller := (size_removeTx_lt present).trans_le consistent.limited.size
  unfold place
  rw [removeTx_cfg, if_neg (fun limited => absurd limited.1 (by omega)), if_neg (by omega)]

theorem evictLowestFee_idle (none_ : m.cfg.evictionBatchSize = 0 ∨ m.txs.size = 0) : m.evictLowestFee = m := by
  have counted := cheapest_length m
  have nothing : m.cheapest = [] := List.length_eq_zero_iff.mp (by omega)
  unfold evictLowestFee
  rw [nothing]
  rfl

/-- The pool after it took a newcomer: in the place of another transaction, into free room, or after an eviction. -/
inductive Takes (m : Mempool) (item : MempoolTx) : Mempool → Prop
  | replacing {hash : Hex} {old : MempoolTx} (found : m.existing item = some (hash, old)) :
    Takes m item ((m.removeTx hash).insert item)
  | roomy (nothing : m.existing item = none) (room : m.txs.size < m.cfg.maxSize) : Takes m item (m.insert item)
  | evicting (nothing : m.existing item = none) (full : m.cfg.maxSize ≤ m.txs.size)
    (batch : 0 < m.cfg.evictionBatchSize) (occupied : 0 < m.txs.size) : Takes m item (m.evictLowestFee.insert item)

inductive Answered (m : Mempool) (item : MempoolTx) : Except TxError MempoolTx × Mempool → Prop
  | refused (refusal : TxError) (rejects : m.accepts item = false) : Answered m item (.error refusal, m)
  | taken {m' : Mempool} (accepts : m.accepts item = true) (takes : m.Takes item m') : Answered m item (.ok item, m')

theorem place_answered (consistent : m.Consistent decoder) (nothing : m.existing item = none) :
    m.Answered item (m.place item) := by
  have bound := consistent.limited.size
  have accepts : m.accepts item =
      (!(decide (m.cfg.maxPerSender ≤ m.senderCount item.sender) && (m.bySender.get? item.sender).isSome) &&
        (decide (m.txs.size < m.cfg.maxSize) || decide (0 < m.cfg.evictionBatchSize) && decide (0 < m.cfg.maxSize))) := by
    unfold Mempool.accepts
    rw [nothing]
  unfold place
  by_cases limited : m.cfg.maxPerSender ≤ m.senderCount item.sender ∧ (m.bySender.get? item.sender).isSome
  · rw [if_pos limited]
    apply Answered.refused
    rw [accepts]
    simp [limited.1, limited.2]
  · have below : (!(decide (m.cfg.maxPerSender ≤ m.senderCount item.sender) &&
        (m.bySender.get? item.sender).isSome)) = true := by
      by_contra reached
      rw [Bool.not_eq_true, Bool.not_eq_false', Bool.and_eq_true, decide_eq_true_eq] at reached
      exact limited reached
    rw [below, Bool.true_and] at accepts
    rw [if_neg limited]
    by_cases full : m.cfg.maxSize ≤ m.txs.size
    · rw [if_pos full]
      by_cases evicts : 0 < m.cfg.evictionBatchSize ∧ 0 < m.cfg.maxSize
      · have occupied : 0 < m.txs.size := by omega
        have room := (size_evictLowestFee consistent.indexed evicts.1 occupied).1
        rw [if_neg (by omega)]
        apply Answered.taken
        · rw [accepts]
          simp [evicts.1, evicts.2]
        · exact .evicting nothing full evicts.1 occupied
      · rw [evictLowestFee_idle (by omega), if_pos full]
        apply Answered.refused
        rw [accepts]
        simp only [Bool.or_eq_false_iff, Bool.and_eq_false_iff, decide_eq_false_iff_not]
        omega
    · rw [if_neg full]
      apply Answered.taken
      · rw [accepts]
        simp only [Bool.or_eq_true, decide_eq_true_eq]
        omega
      · exact .roomy nothing (by omega)

theorem addTx_answered (consistent : m.Consistent decoder) {t : Transaction}
    (passed : m.screen rawTx t now = .ok item) : m.Answered item (m.addTx rawTx t now) := by
  unfold addTx
  rw [passed]
  dsimp only
  unfold replaceExisting
  cases found : m.existing item with
  | none => exact place_answered consistent found
  | some previous =>
    obtain ⟨hash, old⟩ := previous
    have accepts : m.accepts item = decide (m.minPrice old ≤ item.gasPrice) := by
      unfold Mempool.accepts
      rw [found]
    dsimp only
    by_cases cheap : item.gasPrice < m.minPrice old
    · rw [if_pos cheap]
      apply Answered.refused
      rw [accepts]
      simpa using cheap
    · rw [if_neg cheap]
      dsimp only
      rw [place_after_removal consistent found]
      apply Answered.taken
      · rw [accepts]
        simpa using cheap
      · exact .replacing found

theorem Takes.newcomer (takes : m.Takes item m') : m'.pooled item.hash = true := by
  cases takes with
  | replacing found => simp
  | roomy nothing room => simp
  | evicting nothing full batch occupied => simp

theorem Takes.kept_iff (takes : m.Takes item m')
    (self : m.pooled item.hash = true → ∃ old, m.existing item = some (item.hash, old)) :
    (∀ hash, m'.pooled hash = m.pooled hash) ↔ m.pooled item.hash = true := by
  constructor
  · intro kept
    rw [← kept item.hash]
    exact takes.newcomer
  · intro there hash
    obtain ⟨old, present⟩ := self there
    cases takes with
    | replacing found =>
      rw [present] at found
      cases found
      by_cases here : hash = item.hash
      · simp [here, there]
      · simp [here]
    | roomy nothing room =>
      rw [present] at nothing
      cases nothing
    | evicting nothing full batch occupied =>
      rw [present] at nothing
      cases nothing

theorem Takes.given_back_iff (indexed : m.Indexed) (takes : m.Takes item m')
    (self : m.pooled item.hash = true → ∃ old, m.existing item = some (item.hash, old)) :
    (∀ hash, (m'.removeTx item.hash).pooled hash = m.pooled hash) ↔
      m.existing item = none ∧ m.txs.size < m.cfg.maxSize := by
  cases takes with
  | @replacing hash old found =>
    -- The replaced transaction is lost.
    have there : m.pooled hash = true := by simp [pooled, InsertionMap.has, (existing_some found).2]
    constructor
    · intro kept
      have lost := kept hash
      simp [there] at lost
    · rintro ⟨nothing, _⟩
      rw [found] at nothing
      cases nothing
  | roomy nothing room =>
    refine ⟨fun _ => ⟨nothing, room⟩, ?_⟩
    intro _ hash
    by_cases here : hash = item.hash
    · cases there : m.pooled item.hash with
      | false => simp [here, there]
      | true =>
        obtain ⟨old, present⟩ := self there
        rw [present] at nothing
        cases nothing
    · simp [here]
  | evicting nothing full batch occupied =>
    -- So are the evicted ones.
    obtain ⟨_, hash, victim, there⟩ := size_evictLowestFee indexed batch occupied
    constructor
    · intro kept
      have lost := kept hash
      simp [evictLowestFee, pooled_removeAll, victim, there] at lost
    · rintro ⟨_, room⟩
      omega

end Mempool

namespace Admission

open Mempool

variable {decoder : Decoder} {e : Admission} {item : MempoolTx}

/-- When a refusal after the insertion would be harmless: nothing else had to leave the pool for the newcomer. -/
def Harmless (e : Admission) (item : MempoolTx) : Prop :=
  match e.getBalance item.sender with
  | none => e.mempool.pooled item.hash = true
  | some balance =>
    upfrontCost item ≤ balance ∨ (e.mempool.existing item = none ∧ e.mempool.txs.size < e.mempool.cfg.maxSize)

def Admits (decoder : Decoder) (e : Admission) (rawTx : Hex) (now : Int) (item : MempoolTx) : Prop :=
  ∃ decoded, decoder.decode rawTx = some decoded ∧ e.precheck decoded = .ok () ∧
    e.mempool.screen rawTx decoded now = .ok item ∧ e.mempool.accepts item = true

def Untouched (decoder : Decoder) (e : Admission) (rawTx : Hex) (now : Int) : Prop :=
  ∀ refused, (e.addRawTx decoder rawTx now).1 = .error refused →
    ∀ hash, (e.addRawTx decoder rawTx now).2.pooled hash = e.mempool.pooled hash

theorem Admits.unique {other : MempoolTx} (admits : e.Admits decoder rawTx now item)
    (too : e.Admits decoder rawTx now other) : other = item := by
  obtain ⟨decoded, decodes, _, screened, _⟩ := admits
  obtain ⟨decoded', decodes', _, screened', _⟩ := too
  rw [decodes] at decodes'
  cases decodes'
  rw [screened] at screened'
  cases screened'
  rfl

theorem Admits.existing_of_pooled (admits : e.Admits decoder rawTx now item)
    (consistent : e.mempool.Consistent decoder) (there : e.mempool.pooled item.hash = true) :
    ∃ old, e.mempool.existing item = some (item.hash, old) := by
  obtain ⟨decoded, decodes, _, screened, _⟩ := admits
  obtain ⟨sender, sent, rfl⟩ := screen_ok screened
  obtain ⟨old, found⟩ := Option.isSome_iff_exists.mp there
  have taken := consistent.numbered_of_pooled now decodes sent found
  obtain ⟨old, present, _⟩ := consistent.existing_eq taken
  exact ⟨old, present⟩

theorem addRawTx_cases (consistent : e.mempool.Consistent decoder) (rawTx : Hex) (now : Int) :
    ((∃ refused, e.addRawTx decoder rawTx now = (.error refused, e.mempool)) ∧
        ∀ item, ¬ e.Admits decoder rawTx now item) ∨
      ∃ item m', e.Admits decoder rawTx now item ∧ e.mempool.Takes item m' ∧
        e.addRawTx decoder rawTx now = e.checkFunds item m' := by
  unfold addRawTx Admits
  cases decodes : decoder.decode rawTx with
  | none => exact .inl ⟨⟨_, rfl⟩, by simp⟩
  | some t =>
    cases checked : e.precheck t with
    | error refused => exact .inl ⟨⟨refused, by simp [checked]⟩, by simp [checked]⟩
    | ok _ =>
      cases passed : e.mempool.screen rawTx t now with
      | error refused => exact .inl ⟨⟨refused, by simp [checked, addTx, passed]⟩, by simp [passed]⟩
      | ok item =>
        have answered := addTx_answered consistent passed
        generalize outcome : e.mempool.addTx rawTx t now = result at answered
        cases answered with
        | refused refusal rejects => exact .inl ⟨⟨refusal, by simp [checked, outcome]⟩, by simp [passed, rejects]⟩
        | @taken m' accepts takes =>
          exact .inr ⟨item, m', ⟨t, rfl, checked, passed, accepts⟩, takes, by simp [checked, outcome]⟩

theorem checkFunds_untouched_iff (indexed : e.mempool.Indexed) (takes : e.mempool.Takes item m')
    (self : e.mempool.pooled item.hash = true → ∃ old, e.mempool.existing item = some (item.hash, old)) :
    (∀ refused, (e.checkFunds item m').1 = .error refused →
      ∀ hash, (e.checkFunds item m').2.pooled hash = e.mempool.pooled hash) ↔
    (0 < upfrontCost item → e.Harmless item) := by
  unfold checkFunds Harmless
  by_cases costs : 0 < upfrontCost item
  · rw [if_pos costs]
    cases funds : e.getBalance item.sender with
    | none =>
      have kept := takes.kept_iff self
      constructor
      · intro untouched _
        exact kept.mp (untouched .stateUnavailable rfl)
      · intro harmless _ _
        exact kept.mpr (harmless costs)
    | some balance =>
      have givenBack := takes.given_back_iff indexed self
      dsimp only
      by_cases short : balance < upfrontCost item
      · rw [if_pos short]
        constructor
        · intro untouched _
          exact .inr (givenBack.mp (untouched _ rfl))
        · intro harmless _ _
          rcases harmless costs with enough | room
          · omega
          · exact givenBack.mpr room
      · rw [if_neg short]
        constructor
        · intro _ _
          exact .inl (by omega)
        · intro _ refused impossible
          cases impossible
  · rw [if_neg costs]
    constructor
    · intro _ impossible
      exact absurd impossible costs
    · intro _ refused impossible
      cases impossible

/-- A refusal leaves the pool untouched exactly when no refusal for funds can come after a replacement or an
eviction, and no failed balance read after an insertion. -/
theorem addRawTx_untouched_iff (consistent : e.mempool.Consistent decoder) (rawTx : Hex) (now : Int) :
    e.Untouched decoder rawTx now ↔
      ∀ item, e.Admits decoder rawTx now item → 0 < upfrontCost item → e.Harmless item := by
  unfold Untouched
  rcases addRawTx_cases consistent rawTx now with ⟨⟨refused, outcome⟩, never⟩ | ⟨item, m', admits, takes, outcome⟩
  · -- A call that does not get to the balance check leaves the pool alone, and admits nothing.
    rw [outcome]
    constructor
    · intro _ item admitted
      exact absurd admitted (never item)
    · intro _ _ _ _
      rfl
  · rw [outcome, checkFunds_untouched_iff consistent.indexed takes (admits.existing_of_pooled consistent)]
    constructor
    · intro harmless other admitted
      rw [admits.unique admitted]
      exact harmless
    · intro harmless
      exact harmless item admits

end Admission

section Sample

def sampleAdmission (cfg : MempoolConfig) (balance : Int) : Admission where
  mempool := ((Mempool.create cfg []).addRawTx sampleDecoder "0xa1" 1).2
  chainId := none
  isUsed := fun _ => some false
  getNonce := fun _ => some 0
  getBalance := fun _ => some balance

theorem funded_replacement_untouched :
    (sampleAdmission {} 42000000000000).mempool.Consistent sampleDecoder ∧
    ((sampleAdmission {} 42000000000000).Untouched sampleDecoder "0xa2" 2 ↔
      ∀ item, (sampleAdmission {} 42000000000000).Admits sampleDecoder "0xa2" 2 item →
        0 < Admission.upfrontCost item → (sampleAdmission {} 42000000000000).Harmless item) := by
  have consistent : (sampleAdmission {} 42000000000000).mempool.Consistent sampleDecoder :=
    ((Mempool.Consistent.create {} []).addRawTx (by decide) "0xa1" 1).1
  exact ⟨consistent, Admission.addRawTx_untouched_iff consistent "0xa2" 2⟩

/-- The replacement is refused for lack of funds, but what it replaced is gone; and in a full pool so is what was
evicted for it. -/
theorem underfunded_newcomers_cost_pooled_transactions :
    ((sampleAdmission {} 5).addRawTx sampleDecoder "0xa2" 2).1 =
      .error (.insufficientFunds "0xaa" 5 42000000000000) ∧
    (sampleAdmission {} 5).mempool.pooled "0xa1" = true ∧
    ((sampleAdmission {} 5).addRawTx sampleDecoder "0xa2" 2).2.pooled "0xa1" = false ∧
    ((sampleAdmission smallPool 5).addRawTx sampleDecoder "0xb1" 2).1 =
      .error (.insufficientFunds "0xbb" 5 63000000000000) ∧
    (sampleAdmission smallPool 5).mempool.pooled "0xa1" = true ∧
    ((sampleAdmission smallPool 5).addRawTx sampleDecoder "0xb1" 2).2.pooled "0xa1" = false := by
  decide +kernel

end Sample

end Palimesh.TxPool
