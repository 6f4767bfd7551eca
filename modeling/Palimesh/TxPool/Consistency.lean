import Palimesh.TxPool.Picking

namespace Palimesh.TxPool

open Collections InsertionMap Finset

def hashesOf (bySender : InsertionMap Hex (Finset Hex)) (sender : Hex) : Finset Hex :=
  (bySender.get? sender).getD ∅

def MempoolTx.Genuine (decoder : Decoder) (tx : MempoolTx) : Prop :=
  ∃ t, decoder.decode tx.rawTx = some t ∧ t.hash = tx.hash ∧ t.sender.map toLowerCase = some tx.sender ∧
    t.nonce = tx.nonce

namespace Mempool

variable {m : Mempool} {hash : Hex} {tx : MempoolTx}

structure Indexed (m : Mempool) : Prop where
  keyed : ∀ hash tx, m.txs.get? hash = some tx → tx.hash = hash
  sender : ∀ sender hash, hash ∈ hashesOf m.bySender sender ↔ ∃ tx, m.txs.get? hash = some tx ∧ tx.sender = sender
  nonce : ∀ key hash, m.byNonce.get? key = some hash ↔ ∃ tx, m.txs.get? hash = some tx ∧ tx.nonceKey = key
  nonempty : ∀ sender hashes, m.bySender.get? sender = some hashes → hashes.Nonempty

structure Limited (m : Mempool) : Prop where
  size : m.txs.size ≤ m.cfg.maxSize
  perSender : ∀ sender, (hashesOf m.bySender sender).card ≤ m.cfg.maxPerSender

def Decoded (decoder : Decoder) (m : Mempool) : Prop := ∀ hash tx, m.txs.get? hash = some tx → tx.Genuine decoder

structure Ready (m : Mempool) (item : MempoolTx) : Prop where
  absent : m.txs.get? item.hash = none
  free : m.byNonce.get? item.nonceKey = none

section Entries

variable {entries : InsertionMap Hex MempoolTx} {key other : Hex} {P : MempoolTx → Prop}

theorem exists_get?_delete : (∃ t, (entries.delete key).get? other = some t ∧ P t) ↔
    other ≠ key ∧ ∃ t, entries.get? other = some t ∧ P t := by
  by_cases here : other = key <;> simp [here]

theorem exists_get?_set {item : MempoolTx} (absent : entries.get? key = none) :
    (∃ t, (entries.set key item).get? other = some t ∧ P t) ↔
      other = key ∧ P item ∨ ∃ t, entries.get? other = some t ∧ P t := by
  by_cases here : other = key <;> simp [here, absent]

end Entries

theorem Indexed.unique (indexed : m.Indexed) {hash' : Hex} {tx' : MempoolTx} (found : m.txs.get? hash = some tx)
    (found' : m.txs.get? hash' = some tx') (same : tx.nonceKey = tx'.nonceKey) : hash = hash' := by
  have first := (indexed.nonce tx.nonceKey hash).mpr ⟨tx, found, rfl⟩
  have second := (indexed.nonce tx.nonceKey hash').mpr ⟨tx', found', same.symm⟩
  exact Option.some.inj (first.symm.trans second)

theorem hashesOf_unlistSender (bySender : InsertionMap Hex (Finset Hex)) (sender hash other : Hex) :
    hashesOf (unlistSender bySender sender hash) other =
      if other = sender then (hashesOf bySender other).erase hash else hashesOf bySender other := by
  unfold unlistSender hashesOf
  cases listed : bySender.get? sender with
  | none =>
    by_cases same : other = sender
    · simp [same, listed]
    · simp [same]
  | some hashes =>
    dsimp only
    by_cases last : (hashes.erase hash).card = 0
    · rw [if_pos last, get?_delete]
      by_cases same : other = sender
      · simp [same, listed, card_eq_zero.mp last]
      · simp [same]
    · rw [if_neg last, get?_set]
      by_cases same : other = sender
      · simp [same, listed]
      · simp [same]

theorem nonempty_unlistSender {bySender : InsertionMap Hex (Finset Hex)} (sender hash : Hex)
    (before : ∀ other hashes, bySender.get? other = some hashes → hashes.Nonempty) (other : Hex)
    (hashes : Finset Hex) (listed : (unlistSender bySender sender hash).get? other = some hashes) :
    hashes.Nonempty := by
  unfold unlistSender at listed
  split at listed
  · exact before other hashes listed
  · split at listed
    · rw [get?_delete] at listed
      split at listed
      · cases listed
      · exact before other hashes listed
    · rename_i remaining
      rw [get?_set] at listed
      split at listed
      · cases listed
        exact card_ne_zero.mp remaining
      · exact before other hashes listed

theorem removeTx_cases (m : Mempool) (hash : Hex) :
    m.removeTx hash = m ∨ ∃ tx, m.txs.get? hash = some tx ∧
      m.removeTx hash = { m with
        txs := m.txs.delete hash
        byNonce := m.byNonce.delete tx.nonceKey
        bySender := unlistSender m.bySender tx.sender hash } := by
  unfold removeTx
  cases found : m.txs.get? hash with
  | none => exact .inl rfl
  | some tx => exact .inr ⟨tx, rfl, rfl⟩

theorem Indexed.removeTx (indexed : m.Indexed) (hash : Hex) : (m.removeTx hash).Indexed := by
  rcases removeTx_cases m hash with same | ⟨tx, found, removed⟩
  · rw [same]
    exact indexed
  · rw [removed]
    have away : ∀ {P : MempoolTx → Prop} {other : Hex}, ¬ P tx → (∃ t, m.txs.get? other = some t ∧ P t) → other ≠ hash := by
      rintro P other fails ⟨t, present, holds⟩ rfl
      cases found.symm.trans present
      exact fails holds
    refine ⟨?_, ?_, ?_, nonempty_unlistSender tx.sender hash indexed.nonempty⟩
    · intro other t present
      rw [get?_delete] at present
      split at present
      · cases present
      · exact indexed.keyed other t present
    · intro sender other
      rw [exists_get?_delete, hashesOf_unlistSender]
      split
      · rw [mem_erase, indexed.sender]
      · rename_i others
        rw [indexed.sender]
        exact ⟨fun sent => ⟨away (fun same => others same.symm) sent, sent⟩, And.right⟩
    · intro key other
      rw [exists_get?_delete, get?_delete]
      split
      · rename_i own
        refine ⟨nofun, ?_⟩
        rintro ⟨other_ne, t, present, numbered⟩
        exact absurd (indexed.unique present found (numbered.trans own)) other_ne
      · rename_i others
        rw [indexed.nonce]
        exact ⟨fun numbered => ⟨away (fun same => others same.symm) numbered, numbered⟩, And.right⟩

theorem card_hashesOf_removeTx_le (m : Mempool) (hash sender : Hex) :
    (hashesOf (m.removeTx hash).bySender sender).card ≤ (hashesOf m.bySender sender).card := by
  rcases removeTx_cases m hash with same | ⟨tx, _, removed⟩
  · rw [same]
  · rw [removed]
    rw [hashesOf_unlistSender]
    split
    · exact card_le_card (erase_subset _ _)
    · exact le_refl _

theorem Limited.removeTx (limited : m.Limited) (hash : Hex) : (m.removeTx hash).Limited := by
  rcases removeTx_cases m hash with same | ⟨tx, _, removed⟩
  · rw [same]
    exact limited
  · rw [removed]
    constructor
    · exact (size_delete_le m.txs hash).trans limited.size
    · intro sender
      have fewer := card_hashesOf_removeTx_le m hash sender
      rw [removed] at fewer
      exact fewer.trans (limited.perSender sender)

@[simp] theorem get?_removeTx (m : Mempool) (hash other : Hex) :
    (m.removeTx hash).txs.get? other = if other = hash then none else m.txs.get? other := by
  unfold removeTx
  cases found : m.txs.get? hash with
  | none =>
    by_cases here : other = hash
    · simp [here, found]
    · simp [here]
  | some tx => exact get?_delete m.txs hash other

theorem get?_of_removeTx {other : Hex} (found : (m.removeTx hash).txs.get? other = some tx) :
    m.txs.get? other = some tx := by
  rw [get?_removeTx] at found
  split at found
  · cases found
  · exact found

theorem Decoded.removeTx {decoder : Decoder} (decoded : m.Decoded decoder) (hash : Hex) :
    (m.removeTx hash).Decoded decoder :=
  fun other t found => decoded other t (get?_of_removeTx found)

variable {item : MempoolTx}

theorem Ready.removeTx (ready : m.Ready item) (hash : Hex) : (m.removeTx hash).Ready item := by
  rcases removeTx_cases m hash with same | ⟨tx, _, removed⟩
  · rw [same]
    exact ready
  · rw [removed]
    constructor
    · rw [get?_delete, ready.absent, ite_self]
    · rw [get?_delete, ready.free, ite_self]

@[simp] theorem removeTx_cfg (m : Mempool) (hash : Hex) : (m.removeTx hash).cfg = m.cfg := by
  rcases removeTx_cases m hash with same | ⟨_, _, removed⟩
  · rw [same]
  · rw [removed]

@[simp] theorem removeAll_cfg (m : Mempool) (hashes : List Hex) : (m.removeAll hashes).cfg = m.cfg := by
  induction hashes generalizing m with
  | nil => rfl
  | cons hash hashes ih => exact (ih (m.removeTx hash)).trans (removeTx_cfg m hash)

theorem removeAll_keeps (property : Mempool → Prop) (removal : ∀ m hash, property m → property (m.removeTx hash))
    (hashes : List Hex) (holds : property m) : property (m.removeAll hashes) := by
  induction hashes generalizing m with
  | nil => exact holds
  | cons hash hashes ih => exact ih (removal m hash holds)

theorem hashesOf_insert (m : Mempool) (item : MempoolTx) (sender : Hex) :
    hashesOf (m.insert item).bySender sender =
      if sender = item.sender then Insert.insert item.hash (hashesOf m.bySender sender) else hashesOf m.bySender sender := by
  unfold insert hashesOf
  by_cases own : sender = item.sender
  · simp [own]
  · simp [own]

theorem Indexed.insert (indexed : m.Indexed) (ready : m.Ready item) :
    (m.insert item).Indexed := by
  unfold Mempool.insert
  constructor
  · intro other t present
    rw [get?_set] at present
    split at present
    · rename_i here
      cases present
      exact here.symm
    · exact indexed.keyed other t present
  · intro sender other
    rw [exists_get?_set ready.absent, ← indexed.sender]
    change other ∈ hashesOf (m.insert item).bySender sender ↔ _
    rw [hashesOf_insert]
    split
    · rename_i own
      simp [own]
    · rename_i others
      simp [Ne.symm others]
  · intro key other
    rw [exists_get?_set ready.absent, ← indexed.nonce, get?_set]
    split
    · rename_i own
      -- Nothing had this nonce before.
      simp [own, ready.free, eq_comm]
    · rename_i others
      simp [Ne.symm others]
  · intro sender hashes listed
    rw [get?_set] at listed
    split at listed
    · cases listed
      exact insert_nonempty _ _
    · exact indexed.nonempty sender hashes listed

theorem Limited.insert (limited : m.Limited) (ready : m.Ready item) (room : m.txs.size < m.cfg.maxSize)
    (own : (hashesOf m.bySender item.sender).card < m.cfg.maxPerSender) :
    (m.insert item).Limited := by
  constructor
  · show (m.txs.set item.hash item).size ≤ m.cfg.maxSize
    rw [size_set_of_absent ready.absent]
    omega
  · intro sender
    show (hashesOf (m.insert item).bySender sender).card ≤ m.cfg.maxPerSender
    rw [hashesOf_insert]
    split
    · rename_i same
      have grown := card_insert_le item.hash (hashesOf m.bySender sender)
      rw [same] at grown ⊢
      omega
    · exact limited.perSender sender

structure Consistent (decoder : Decoder) (m : Mempool) : Prop where
  indexed : m.Indexed
  limited : m.Limited
  decoded : m.Decoded decoder

variable {decoder : Decoder}

theorem Consistent.removeTx (consistent : m.Consistent decoder) (hash : Hex) : (m.removeTx hash).Consistent decoder :=
  ⟨consistent.indexed.removeTx hash, consistent.limited.removeTx hash, consistent.decoded.removeTx hash⟩

theorem Consistent.removeAll (consistent : m.Consistent decoder) (hashes : List Hex) :
    (m.removeAll hashes).Consistent decoder :=
  removeAll_keeps (Consistent decoder) (fun _ hash earlier => earlier.removeTx hash) hashes consistent

theorem Consistent.existing_eq (consistent : m.Consistent decoder)
    (taken : m.byNonce.get? item.nonceKey = some hash) :
    ∃ old, m.existing item = some (hash, old) ∧ m.txs.get? hash = some old ∧ old.nonceKey = item.nonceKey := by
  obtain ⟨old, found, numbered⟩ := (consistent.indexed.nonce item.nonceKey hash).mp taken
  obtain ⟨t, decodes, hashed, _⟩ := consistent.decoded hash old found
  have named : hash ≠ "" := by
    rw [← consistent.indexed.keyed hash old found, ← hashed]
    exact decoder.hashed _ t decodes
  apply Exists.intro old
  constructor
  · unfold existing
    simp [taken, named, found, Option.filter]
  · exact ⟨found, numbered⟩

variable {t : Transaction}

theorem ready_of_free (free : m.byNonce.get? item.nonceKey = none)
    (own : ∀ tx, m.txs.get? item.hash = some tx → m.byNonce.get? item.nonceKey = some item.hash) : m.Ready item := by
  refine ⟨?_, free⟩
  cases found : m.txs.get? item.hash with
  | none => rfl
  | some tx =>
    have occupied := own tx found
    rw [free] at occupied
    cases occupied

theorem ready_after_removal {old : MempoolTx} (taken : m.byNonce.get? item.nonceKey = some hash)
    (found : m.txs.get? hash = some old) (numbered : old.nonceKey = item.nonceKey)
    (own : ∀ tx, m.txs.get? item.hash = some tx → m.byNonce.get? item.nonceKey = some item.hash) :
    (m.removeTx hash).Ready item := by
  apply ready_of_free
  · unfold removeTx
    rw [found]
    rw [get?_delete, numbered, if_pos rfl]
  · -- The only hash under this nonce was the removed one.
    intro tx present
    rw [get?_removeTx] at present
    split at present
    · cases present
    · rename_i other
      have occupied := own tx present
      rw [taken] at occupied
      exact absurd (Option.some.inj occupied).symm other

theorem Decoded.insert (decoded : m.Decoded decoder) (genuine : item.Genuine decoder) :
    (m.insert item).Decoded decoder := by
  intro other tx found
  unfold Mempool.insert at found
  rw [get?_set] at found
  split at found
  · cases found
    exact genuine
  · exact decoded other tx found

theorem card_hashesOf_removeAll_le (m : Mempool) (hashes : List Hex) (sender : Hex) :
    (hashesOf (m.removeAll hashes).bySender sender).card ≤ (hashesOf m.bySender sender).card :=
  removeAll_keeps (fun n => (hashesOf n.bySender sender).card ≤ (hashesOf m.bySender sender).card)
    (fun n hash earlier => (card_hashesOf_removeTx_le n hash sender).trans earlier) hashes (le_refl _)

theorem senderCount_eq (m : Mempool) (sender : Hex) : m.senderCount sender = (hashesOf m.bySender sender).card := by
  unfold senderCount hashesOf
  cases m.bySender.get? sender <;> rfl

variable {sender : Hex}

theorem card_lt_of_not_limited (positive : 1 ≤ m.cfg.maxPerSender)
    (below : ¬ (m.cfg.maxPerSender ≤ m.senderCount sender ∧ (m.bySender.get? sender).isSome)) :
    (hashesOf m.bySender sender).card < m.cfg.maxPerSender := by
  rw [senderCount_eq] at below
  by_cases listed : (m.bySender.get? sender).isSome
  · by_contra reached
    exact below ⟨by omega, listed⟩
  · have none : m.bySender.get? sender = none := by simpa using listed
    simp only [hashesOf, none, Option.getD_none, card_empty]
    omega

theorem validateTxStructure_sender (valid : validateTxStructure t = .ok sender) :
    t.sender = some sender := by
  unfold validateTxStructure at valid
  dsimp only at valid
  split at valid
  · cases valid
  · rename_i found
    have sent := (Option.filter_eq_some_iff.mp found).1
    repeat' split at valid
    all_goals cases valid
    exact sent

variable {rawTx : Hex}

theorem screen_ok {now : Int} (passed : m.screen rawTx t now = .ok item) :
    ∃ sender, t.sender = some sender ∧ item = pooledTx rawTx t sender now := by
  unfold screen at passed
  split at passed
  · cases passed
  · rename_i sender valid
    have sent := validateTxStructure_sender valid
    repeat' split at passed
    all_goals cases passed
    exact ⟨sender, sent, rfl⟩

theorem genuine_pooledTx (now : Int) (decodes : decoder.decode rawTx = some t)
    (sent : t.sender = some sender) :
    (pooledTx rawTx t sender now).Genuine decoder := by
  apply Exists.intro t
  rw [sent]
  exact ⟨decodes, rfl, rfl, rfl⟩

def Shrinks (m m' : Mempool) : Prop := ∃ hashes, m' = m.removeAll hashes

theorem Shrinks.refl (m : Mempool) : Shrinks m m := ⟨[], rfl⟩

theorem Shrinks.removeTx (m : Mempool) (hash : Hex) : Shrinks m (m.removeTx hash) := ⟨[hash], rfl⟩

variable {m' : Mempool}

theorem Shrinks.trans {m m'' : Mempool} (first : Shrinks m m') (second : Shrinks m' m'') : Shrinks m m'' := by
  obtain ⟨hashes, rfl⟩ := first
  obtain ⟨more, rfl⟩ := second
  exact ⟨hashes ++ more, (List.foldl_append).symm⟩

section

variable (consistent : m.Consistent decoder)
include consistent

theorem Consistent.numbered_of_pooled (now : Int) (decodes : decoder.decode rawTx = some t)
    (sent : t.sender = some sender) (found : m.txs.get? t.hash = some tx) :
    m.byNonce.get? (pooledTx rawTx t sender now).nonceKey = some t.hash := by
  obtain ⟨t', decodes', hashed', sent', numbered'⟩ := consistent.decoded t.hash tx found
  have sameHash : t.hash = t'.hash := (consistent.indexed.keyed _ tx found).symm.trans hashed'.symm
  obtain ⟨sameSender, sameNonce⟩ := decoder.committed _ _ _ _ decodes decodes' sameHash
  rw [← sameSender, sent] at sent'
  apply (consistent.indexed.nonce _ _).mpr
  apply Exists.intro tx
  constructor
  · exact found
  · unfold MempoolTx.nonceKey pooledTx
    rw [sameNonce, numbered', ← Option.some.inj sent']

theorem Consistent.replaceExisting {now : Int} (decodes : decoder.decode rawTx = some t)
    (sent : t.sender = some sender)
    (replaced : m.replaceExisting (pooledTx rawTx t sender now) = .ok m') :
    m'.Consistent decoder ∧ m'.Ready (pooledTx rawTx t sender now) := by
  have own : ∀ tx, m.txs.get? t.hash = some tx →
      m.byNonce.get? (pooledTx rawTx t sender now).nonceKey = some t.hash := fun _ found =>
    consistent.numbered_of_pooled now decodes sent found
  unfold Mempool.replaceExisting at replaced
  cases taken : m.byNonce.get? (pooledTx rawTx t sender now).nonceKey with
  | none =>
    have nothing : m.existing (pooledTx rawTx t sender now) = none := by simp [existing, taken]
    rw [nothing] at replaced
    cases replaced
    exact ⟨consistent, ready_of_free taken own⟩
  | some hash =>
    obtain ⟨old, exists_, found, numbered⟩ := consistent.existing_eq taken
    rw [exists_] at replaced
    dsimp only at replaced
    split at replaced
    · cases replaced
    · cases replaced
      exact ⟨consistent.removeTx hash, ready_after_removal taken found numbered own⟩

theorem Consistent.insert (ready : m.Ready item) (genuine : item.Genuine decoder) (room : m.txs.size < m.cfg.maxSize)
    (own : (hashesOf m.bySender item.sender).card < m.cfg.maxPerSender) : (m.insert item).Consistent decoder :=
  ⟨consistent.indexed.insert ready, consistent.limited.insert ready room own, consistent.decoded.insert genuine⟩

theorem Consistent.place (ready : m.Ready item) (genuine : item.Genuine decoder) (positive : 1 ≤ m.cfg.maxPerSender) :
    (m.place item).2.Consistent decoder := by
  have evicted : m.evictLowestFee.Consistent decoder := consistent.removeAll m.cheapest
  have evictedReady : m.evictLowestFee.Ready item :=
    removeAll_keeps (Ready · item) (fun _ hash earlier => earlier.removeTx hash) m.cheapest ready
  have sameCfg : m.evictLowestFee.cfg = m.cfg := removeAll_cfg m m.cheapest
  unfold Mempool.place
  split
  · exact consistent
  · rename_i below
    have own := card_lt_of_not_limited positive below
    have ownEvicted := (card_hashesOf_removeAll_le m m.cheapest item.sender).trans_lt own
    split
    · split
      · exact evicted
      · apply evicted.insert evictedReady genuine
        · rw [sameCfg]
          omega
        · rw [sameCfg]
          exact ownEvicted
    · exact consistent.insert ready genuine (by omega) own

theorem Consistent.shrinks (shrinks : Shrinks m m') : m'.Consistent decoder ∧ m'.cfg = m.cfg := by
  obtain ⟨hashes, rfl⟩ := shrinks
  exact ⟨consistent.removeAll hashes, removeAll_cfg m hashes⟩

end

@[simp] theorem replaceExisting_cfg (replaced : m.replaceExisting item = .ok m') :
    m'.cfg = m.cfg := by
  unfold Mempool.replaceExisting at replaced
  split at replaced
  · cases replaced
    rfl
  · split at replaced
    · cases replaced
    · cases replaced
      exact removeTx_cfg m _

theorem place_cfg (m : Mempool) (item : MempoolTx) : (m.place item).2.cfg = m.cfg := by
  have evicted : m.evictLowestFee.cfg = m.cfg := removeAll_cfg m m.cheapest
  unfold place
  repeat' split
  all_goals first | rfl | exact evicted

theorem Consistent.addRawTx (consistent : m.Consistent decoder) (positive : 1 ≤ m.cfg.maxPerSender) (rawTx : Hex)
    (now : Int) :
    (m.addRawTx decoder rawTx now).2.Consistent decoder ∧ (m.addRawTx decoder rawTx now).2.cfg = m.cfg := by
  unfold Mempool.addRawTx
  split
  · exact ⟨consistent, rfl⟩
  · rename_i t decodes
    unfold addTx
    split
    · exact ⟨consistent, rfl⟩
    · rename_i item passed
      obtain ⟨sender, sent, rfl⟩ := screen_ok passed
      split
      · exact ⟨consistent, rfl⟩
      · rename_i m' replaced
        obtain ⟨after, ready⟩ := consistent.replaceExisting decodes sent replaced
        have same := replaceExisting_cfg replaced
        refine ⟨after.place ready (genuine_pooledTx now decodes sent) ?_, (place_cfg m' _).trans same⟩
        rw [same]
        exact positive

end Mempool

namespace PickCall

open Mempool

variable (call : PickCall) (balances : InsertionMap Hex Int)

theorem tryPickOne_shrinks (s : PickState) (tx : MempoolTx) :
    Shrinks s.pool (call.tryPickOne balances s tx).2.pool := by
  have removed := Shrinks.removeTx s.pool tx.hash
  have same := Shrinks.refl s.pool
  unfold tryPickOne
  repeat' split
  all_goals first | exact same | exact removed

theorem drainQueue_shrinks (sender : Hex) (queue : List MempoolTx) (s : PickState) :
    Shrinks s.pool (call.drainQueue balances sender queue s).pool := by
  induction queue generalizing s with
  | nil => exact Shrinks.refl s.pool
  | cons head rest ih =>
    have picked := tryPickOne_shrinks call balances s head
    unfold drainQueue
    split
    · generalize call.tryPickOne balances s head = outcome at picked
      dsimp only
      split
      · exact picked.trans (ih outcome.2)
      · exact picked
    · exact Shrinks.refl s.pool

theorem visit_shrinks (s : PickState) (tx : MempoolTx) : Shrinks s.pool (call.visit balances s tx).pool := by
  have picked := tryPickOne_shrinks call balances s tx
  unfold visit
  split
  · rename_i s' outcome
    rw [outcome] at picked
    exact picked
  · rename_i s' outcome
    rw [outcome] at picked
    apply picked.trans
    unfold drainDeferred
    split
    · exact Shrinks.refl s'.pool
    · exact drainQueue_shrinks call balances tx.sender _ s'
  · rename_i s' outcome
    rw [outcome] at picked
    exact picked

theorem resume_shrinks (pool : Mempool) (sorted : List MempoolTx) (fetched : Fetched) :
    Shrinks pool (call.resume pool sorted fetched).2 := by
  have loop : ∀ s : PickState, Shrinks s.pool (sorted.foldl (call.visit fetched.balances) s).pool := by
    induction sorted with
    | nil => exact fun s => Shrinks.refl s.pool
    | cons tx sorted ih => exact fun s => (visit_shrinks call fetched.balances s tx).trans (ih _)
  exact loop { pool, expected := fetched.expected }

end PickCall

namespace Mempool

theorem evictExpired_shrinks (m : Mempool) (now : Int) : Shrinks m (m.evictExpired now).2 := ⟨_, rfl⟩

theorem beginPick_shrinks (m : Mempool) (call : PickCall) (now : Int) : Shrinks m (m.beginPick call now).2 := by
  unfold beginPick
  split
  · exact Shrinks.refl m
  · exact evictExpired_shrinks m now

theorem pickForBlock_shrinks (m : Mempool) (call : PickCall) (now : Int) : Shrinks m (m.pickForBlock call now).2 :=
  (beginPick_shrinks m call now).trans (call.resume_shrinks _ _ _)

end Mempool

/-- The calls on a pool. While `pickForBlock` waits for its oracles others may run, so that it also comes in two
    parts, the second with any selection and answers. -/
inductive MempoolOp
  | addRawTx (rawTx : Hex) (now : Int)
  | remove (hash : Hex)
  | poison (hash : Hex)
  | evictExpired (now : Int)
  | pickForBlock (call : PickCall) (now : Int)
  | beginPick (call : PickCall) (now : Int)
  | resumePick (call : PickCall) (sorted : List MempoolTx) (fetched : Fetched)

namespace Mempool

def step (decoder : Decoder) (m : Mempool) : MempoolOp → Mempool
  | .addRawTx rawTx now => (m.addRawTx decoder rawTx now).2
  | .remove hash => m.removeTx hash
  | .poison hash => m.poison hash
  | .evictExpired now => (m.evictExpired now).2
  | .pickForBlock call now => (m.pickForBlock call now).2
  | .beginPick call now => (m.beginPick call now).2
  | .resumePick call sorted fetched => (call.resume m sorted fetched).2

variable {m : Mempool} {decoder : Decoder}

theorem Consistent.poison (consistent : m.Consistent decoder) (hash : Hex) :
    (m.poison hash).Consistent decoder ∧ (m.poison hash).cfg = m.cfg := by
  -- The indices do not look at the poisoned hashes.
  have poisoned : ∀ hashes, ({ m with poisoned := hashes } : Mempool).Consistent decoder := fun hashes =>
    ⟨{ consistent.indexed with }, { consistent.limited with }, consistent.decoded⟩
  exact (poisoned (addPoisoned m.poisoned hash)).shrinks (Shrinks.removeTx _ hash)

theorem Consistent.step (consistent : m.Consistent decoder) (positive : 1 ≤ m.cfg.maxPerSender) (op : MempoolOp) :
    (m.step decoder op).Consistent decoder ∧ (m.step decoder op).cfg = m.cfg := by
  cases op with
  | addRawTx rawTx now => exact consistent.addRawTx positive rawTx now
  | remove hash => exact consistent.shrinks (Shrinks.removeTx m hash)
  | poison hash => exact consistent.poison hash
  | evictExpired now => exact consistent.shrinks (evictExpired_shrinks m now)
  | pickForBlock call now => exact consistent.shrinks (pickForBlock_shrinks m call now)
  | beginPick call now => exact consistent.shrinks (beginPick_shrinks m call now)
  | resumePick call sorted fetched => exact consistent.shrinks (call.resume_shrinks m sorted fetched)

theorem Consistent.create (cfg : MempoolConfig) (hashes : List Hex) : (create cfg hashes).Consistent decoder := by
  constructor
  · constructor
    · intro hash tx found
      cases found
    · intro sender hash
      simp [Mempool.create, hashesOf]
    · intro key hash
      simp [Mempool.create]
    · intro sender hashes listed
      cases listed
  · constructor
    · exact Nat.zero_le _
    · intro sender
      exact Nat.zero_le _
  · intro hash tx found
    cases found

theorem Consistent.run (consistent : m.Consistent decoder) (positive : 1 ≤ m.cfg.maxPerSender) (ops : List MempoolOp) :
    (ops.foldl (Mempool.step decoder) m).Consistent decoder ∧ (ops.foldl (Mempool.step decoder) m).cfg = m.cfg := by
  induction ops generalizing m with
  | nil => exact ⟨consistent, rfl⟩
  | cons op ops ih =>
    obtain ⟨next, sameCfg⟩ := consistent.step positive op
    obtain ⟨final, finalCfg⟩ := ih next (by rw [sameCfg]; exact positive)
    exact ⟨final, finalCfg.trans sameCfg⟩

structure Agrees (m : Mempool) : Prop where
  listed : ∀ hash tx, m.txs.get? hash = some tx → ∃ hashes, m.bySender.get? tx.sender = some hashes ∧ hash ∈ hashes
  numbered : ∀ hash tx, m.txs.get? hash = some tx → m.byNonce.get? (nonceKey tx.sender tx.nonce) = some hash
  ofSender : ∀ sender hashes, m.bySender.get? sender = some hashes →
    ∀ hash ∈ hashes, ∃ tx, m.txs.get? hash = some tx ∧ tx.sender = sender
  ofNonce : ∀ key hash, m.byNonce.get? key = some hash →
    ∃ tx, m.txs.get? hash = some tx ∧ nonceKey tx.sender tx.nonce = key
  noEmptySet : ∀ sender hashes, m.bySender.get? sender = some hashes → hashes ≠ ∅
  distinct : ∀ hash tx hash' tx', m.txs.get? hash = some tx → m.txs.get? hash' = some tx' →
    tx.sender = tx'.sender → tx.nonce = tx'.nonce → hash = hash'
  size : m.txs.size ≤ m.cfg.maxSize
  perSender : ∀ sender hashes, m.bySender.get? sender = some hashes → hashes.card ≤ m.cfg.maxPerSender

theorem Consistent.agrees (consistent : m.Consistent decoder) : m.Agrees := by
  obtain ⟨indexed, limited, _⟩ := consistent
  have hashes_eq : ∀ {sender hashes}, m.bySender.get? sender = some hashes → hashesOf m.bySender sender = hashes := by
    intro sender hashes found
    rw [hashesOf, found]
    rfl
  constructor
  · intro hash tx found
    have member := (indexed.sender tx.sender hash).mpr ⟨tx, found, rfl⟩
    cases listed : m.bySender.get? tx.sender with
    | none =>
      rw [hashesOf, listed] at member
      cases member
    | some hashes =>
      rw [hashes_eq listed] at member
      exact ⟨hashes, rfl, member⟩
  · intro hash tx found
    exact (indexed.nonce _ hash).mpr ⟨tx, found, rfl⟩
  · intro sender hashes listed hash member
    rw [← hashes_eq listed] at member
    exact (indexed.sender sender hash).mp member
  · intro key hash stored
    exact (indexed.nonce key hash).mp stored
  · intro sender hashes listed
    exact (indexed.nonempty sender hashes listed).ne_empty
  · intro hash tx hash' tx' found found' sameSender sameNonce
    apply indexed.unique found found'
    rw [MempoolTx.nonceKey, MempoolTx.nonceKey, sameSender, sameNonce]
  · exact limited.size
  · intro sender hashes listed
    rw [← hashes_eq listed]
    exact limited.perSender sender

end Mempool

/-- After any calls, accepted or refused, the indices agree with the pool. -/
theorem mempool_indices_agree (decoder : Decoder) (cfg : MempoolConfig) (positive : 1 ≤ cfg.maxPerSender)
    (poisoned : List Hex) (ops : List MempoolOp) :
    (ops.foldl (Mempool.step decoder) (Mempool.create cfg poisoned)).Agrees :=
  ((Mempool.Consistent.create cfg poisoned).run positive ops).1.agrees

section Sample

def sampleTx (hash sender : Hex) (nonce : Nat) (gasPrice : Int) : Transaction where
  hash := hash
  sender := some sender
  type := 0
  recipient := some "0xdd"
  data := []
  nonce := nonce
  gasLimit := some 21000
  gasPrice := some gasPrice
  maxFeePerGas := none
  maxPriorityFeePerGas := none
  value := some 0
  chainId := some 18780

def sampleTxs : List Transaction :=
  [sampleTx "0xa1" "0xAA" 0 1000000000, sampleTx "0xa2" "0xAA" 0 2000000000, sampleTx "0xb1" "0xBB" 0 3000000000]

def sampleDecoder : Decoder where
  decode rawTx := sampleTxs.find? fun t => t.hash = rawTx
  hashed := by
    intro rawTx t decodes
    have named : ∀ t ∈ sampleTxs, t.hash ≠ "" := by decide
    exact named t (List.mem_of_find?_eq_some decodes)
  committed := by
    intro rawTx t rawTx' t' decodes decodes' same
    have own : t.hash = rawTx := by simpa using List.find?_some decodes
    have own' : t'.hash = rawTx' := by simpa using List.find?_some decodes'
    rw [← own, same, own', decodes'] at decodes
    cases decodes
    exact ⟨rfl, rfl⟩

def smallPool : MempoolConfig := { maxSize := 1, maxPerSender := 1, evictionBatchSize := 1 }

theorem replaced_and_evicted_agree :
    1 ≤ smallPool.maxPerSender ∧
    ([.addRawTx "0xa1" 1, .addRawTx "0xa2" 2, .addRawTx "0xb1" 3, .addRawTx "0xa1" 4, .remove "0xb1"].foldl
      (Mempool.step sampleDecoder) (Mempool.create smallPool [])).Agrees :=
  ⟨by decide, mempool_indices_agree sampleDecoder smallPool (by decide) [] _⟩

end Sample

end Palimesh.TxPool
