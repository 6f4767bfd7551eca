import Palimesh.Bft.Certificates

namespace Palimesh.Bft

open Collections Relation List BftVoteLedger

def lastWritten (effects : List Effect) : VoteLedgerSnapshot :=
  effects.foldl (fun file effect => match effect with
    | .ledgerWritten snapshot => snapshot
    | _ => file) .empty

theorem lastWritten_append (effects : List Effect) (effect : Effect) :
    lastWritten (effects ++ [effect]) = match effect with
      | .ledgerWritten snapshot => snapshot
      | _ => lastWritten effects := by
  rw [lastWritten, foldl_append]
  cases effect <;> rfl

structure LedgerInv (S : Setting) (c : Coordinator) : Prop where
  durable : c.voteLedger.durable = true
  file : ∀ height, (lastWritten c.effects).prepared.get? height = c.voteLedger.prepared.get? height ∧
    (lastWritten c.effects).committed.get? height = c.voteLedger.committed.get? height
  stored : ∀ height a, c.localPreparedAt.get? height = some a → c.voteLedger.prepared.get? height = some a
  current : ∀ height a, S.floor c < height → c.voteLedger.prepared.get? height = some a →
    c.localPreparedAt.get? height = some a
  commits : ∀ height a, c.voteLedger.committed.get? height = some a →
    c.voteLedger.prepared.get? height = some a
  consistent : ∀ height a b, c.voteLedger.prepared.get? height = some a → Said c height b → b = a
  finalized : c.lastFinalizedHeight = 0 ∨ ∃ b root, Effect.roundFinalized b root ∈ c.effects ∧
    b.number = c.lastFinalizedHeight

variable {S : Setting} {c c' : Coordinator}

def WriteOk (before after : BftVoteLedger) (write : Option VoteLedgerSnapshot) : Prop :=
  write = some after.snapshot ∨ (write = none ∧ after = before)

theorem WriteOk.file {before after : BftVoteLedger} {write : Option VoteLedgerSnapshot} {effects : List Effect}
    (ok : WriteOk before after write)
    (file : ∀ height, (lastWritten effects).prepared.get? height = before.prepared.get? height ∧
      (lastWritten effects).committed.get? height = before.committed.get? height) (height : Int) :
    (lastWritten (effects ++ (write.map Effect.ledgerWritten).toList)).prepared.get? height =
        after.prepared.get? height ∧
      (lastWritten (effects ++ (write.map Effect.ledgerWritten).toList)).committed.get? height =
        after.committed.get? height := by
  rcases ok with written | ⟨skipped, same⟩
  · rw [written]
    simp only [Option.map_some, Option.toList_some, lastWritten_append]
    exact ⟨rfl, rfl⟩
  · rw [skipped, same]
    simpa using file height

inductive LedgerCall
  | recordPrepared (height : Int) (blockHash : Hex)
  | recordCommitted (height : Int) (blockHash : Hex)
  | prune (finalizedHeight : Int)
  | clearAll

def BftVoteLedger.call (ledger : BftVoteLedger) : LedgerCall → BftVoteLedger × Option VoteLedgerSnapshot
  | .recordPrepared height blockHash => ledger.recordPrepared height blockHash
  | .recordCommitted height blockHash => ledger.recordCommitted height blockHash
  | .prune finalizedHeight => ledger.prune finalizedHeight
  | .clearAll => ledger.clearAll

theorem call_written {ledger : BftVoteLedger} (durable : ledger.durable = true) (call : LedgerCall) :
    (ledger.call call).1.durable = true ∧ WriteOk ledger (ledger.call call).1 (ledger.call call).2 := by
  cases call with
  | recordPrepared _ _ | recordCommitted _ _ | clearAll =>
    simp only [BftVoteLedger.call, recordPrepared, recordCommitted, clearAll]
    split
    · exact ⟨durable, .inr ⟨rfl, rfl⟩⟩
    · exact ⟨durable, .inl (if_pos durable)⟩
  | prune height =>
    simp only [BftVoteLedger.call, prune]
    split
    · exact ⟨durable, .inl (if_pos durable)⟩
    · exact ⟨durable, .inr ⟨rfl, rfl⟩⟩

/-- A ledger and its file, which keeps what it holds when a flush fails. -/
structure FileBacked where
  ledger : BftVoteLedger
  file : VoteLedgerSnapshot

def FileBacked.step (s : FileBacked) (call : Bool × LedgerCall) : FileBacked :=
  let (ledger, write) := s.ledger.call call.2
  ⟨ledger, if call.1 then write.getD s.file else s.file⟩

variable (file : VoteLedgerSnapshot) (calls : List (Bool × LedgerCall))

def FileBacked.run : FileBacked :=
  calls.foldl step ⟨.load file true, file⟩

theorem FileBacked.durable : (run file calls).ledger.durable = true := by
  unfold run
  generalize start : (⟨.load file true, file⟩ : FileBacked) = s
  have durable : s.ledger.durable = true := by rw [← start]; rfl
  clear start
  induction calls generalizing s with
  | nil => exact durable
  | cons call calls ih => exact ih _ (call_written durable call.2).1

/-- A record that returns while the file can be written is on disk unless memory alone already held it. -/
theorem FileBacked.recorded_on_disk_iff (file : VoteLedgerSnapshot) (calls : List (Bool × LedgerCall)) (height : Int)
    (hash : Hex) :
    ((load ((run file calls).step (true, .recordPrepared height hash)).file true).prepared.get? height =
        some hash ↔
      (run file calls).ledger.prepared.get? height ≠ some hash ∨ (run file calls).file.prepared.get? height = some hash) ∧
    ((load ((run file calls).step (true, .recordCommitted height hash)).file true).committed.get? height =
        some hash ↔
      (run file calls).ledger.committed.get? height ≠ some hash ∨
        (run file calls).file.committed.get? height = some hash) := by
  have durable := durable file calls
  generalize run file calls = s at durable
  simp only [load, if_true, get?_throughObject, step, BftVoteLedger.call]
  constructor
  · by_cases held : s.ledger.prepared.get? height = some hash
    · simp [recordPrepared, held]
    · simp [recordPrepared, flush, snapshot, held, durable]
  · by_cases held : s.ledger.committed.get? height = some hash
    · simp [recordCommitted, held]
    · simp [recordCommitted, flush, snapshot, held, durable]

theorem FileBacked.repeated_record_lost :
    (load ((run .empty [(false, .recordPrepared 1 "0xa")]).step (true, .recordPrepared 1 "0xa")).file
      true).prepared.get? 1 = none := by
  decide +kernel

section

variable (ledger : LedgerInv S c)
include ledger

theorem LedgerInv.unchanged (voteLedger : c'.voteLedger = c.voteLedger)
    (prepared : c'.localPreparedAt = c.localPreparedAt) (finalized : c'.lastFinalizedHeight = c.lastFinalizedHeight)
    (file : lastWritten c'.effects = lastWritten c.effects) (kept : ∀ effect ∈ c.effects, effect ∈ c'.effects)
    (said : ∀ height a b, c.voteLedger.prepared.get? height = some a → Said c' height b → b = a) :
    LedgerInv S c' where
  durable := by rw [voteLedger]; exact ledger.durable
  file := by rw [voteLedger, file]; exact ledger.file
  stored := by rw [voteLedger, prepared]; exact ledger.stored
  current := by rw [voteLedger, prepared, Setting.floor, finalized]; exact ledger.current
  commits := by rw [voteLedger]; exact ledger.commits
  consistent := by rw [voteLedger]; exact said
  finalized := by
    rw [finalized]
    rcases ledger.finalized with zero | ⟨b, root, decided, number⟩
    · exact .inl zero
    · exact .inr ⟨b, root, kept _ decided, number⟩

theorem LedgerInv.quiet (same : c.SameVotes c') : LedgerInv S c' := by
  refine ledger.unchanged same.voteLedger same.localPreparedAt same.lastFinalizedHeight ?_ ?_ ?_
  · rw [same.effects]
  · exact fun effect member => same.effects ▸ member
  · intro height a b recorded said
    have before : Said c height b := said.mono (fun effect member => .inl (same.effects ▸ member)) same.linger
    exact ledger.consistent height a b recorded before

theorem LedgerInv.recordPrepare (inv : VoteInv S c) {block : ChainBlock} (above : S.floor c < block.number)
    (free : c.refusesPrepare block = false) : LedgerInv S (c.recordPrepare block) := by
  have said {height : Int} {a : Hex} (s : Said (c.recordPrepare block) height a) : Said c height a :=
    s.of_silent rfl (silent_write _) rfl
  have prepared (height : Int) : (c.recordPrepare block).localPreparedAt.get? height =
      if height = block.number then some block.hash else c.localPreparedAt.get? height :=
    InsertionMap.get?_set _ _ _ _
  have stored (height : Int) : (c.recordPrepare block).voteLedger.prepared.get? height =
      if height = block.number then some block.hash else c.voteLedger.prepared.get? height :=
    recordPrepared_get? _ _ _ _
  have committed : (c.recordPrepare block).voteLedger.committed = c.voteLedger.committed := by
    change (c.voteLedger.recordPrepared block.number block.hash).1.committed = _
    unfold recordPrepared
    split <;> rfl
  obtain ⟨durable, write⟩ := call_written ledger.durable (.recordPrepared block.number block.hash)
  refine ⟨durable, write.file ledger.file, ?_, ?_, ?_, ?_, ?_⟩
  · intro height a
    rw [prepared, stored]
    split
    · exact id
    · exact ledger.stored height a
  · intro height a beyond
    rw [prepared, stored]
    split
    · exact id
    · exact ledger.current height a beyond
  · intro height a
    rw [committed, stored]
    intro before
    have recorded := ledger.commits height a before
    by_cases same : height = block.number
    · subst same
      have local' := ledger.current block.number a above recorded
      have agrees : a = block.hash := by simpa [Coordinator.refusesPrepare, local'] using free
      rw [if_pos rfl, agrees]
    · rw [if_neg same]
      exact recorded
  · intro height a b
    rw [stored]
    intro recorded s
    by_cases same : height = block.number
    · subst same
      rw [if_pos rfl] at recorded
      cases recorded
      exact inv.free_agrees above free (said s)
    · rw [if_neg same] at recorded
      exact ledger.consistent height a b recorded (said s)
  · rcases ledger.finalized with zero | ⟨b, root, decided, number⟩
    · exact .inl zero
    · exact .inr ⟨b, root, mem_append_left _ decided, number⟩

theorem LedgerInv.recordCommit {height : Int} {blockHash : Hex}
    (recorded : c.localPreparedAt.get? height = some blockHash) : LedgerInv S (c.recordCommit height blockHash) := by
  have said {h : Int} {a : Hex} (s : Said (c.recordCommit height blockHash) h a) : Said c h a :=
    s.of_silent rfl (silent_write _) rfl
  have committed (h : Int) : (c.recordCommit height blockHash).voteLedger.committed.get? h =
      if h = height then some blockHash else c.voteLedger.committed.get? h :=
    recordCommitted_get? _ _ _ _
  have prepared : (c.recordCommit height blockHash).voteLedger.prepared = c.voteLedger.prepared := by
    change (c.voteLedger.recordCommitted height blockHash).1.prepared = _
    unfold recordCommitted
    split <;> rfl
  obtain ⟨durable, write⟩ := call_written ledger.durable (.recordCommitted height blockHash)
  refine ⟨durable, write.file ledger.file, ?_, ?_, ?_, ?_, ?_⟩
  · rw [prepared]
    exact ledger.stored
  · rw [prepared]
    exact ledger.current
  · intro h a
    rw [committed, prepared]
    intro present
    by_cases same : h = height
    · rw [if_pos same] at present
      cases present
      rw [same]
      exact ledger.stored height blockHash recorded
    · rw [if_neg same] at present
      exact ledger.commits h a present
  · rw [prepared]
    exact fun h a b present s => ledger.consistent h a b present (said s)
  · rcases ledger.finalized with zero | ⟨b, root, decided, number⟩
    · exact .inl zero
    · exact .inr ⟨b, root, mem_append_left _ decided, number⟩

theorem LedgerInv.broadcast {m : BftMessage}
    (backed : c.localPreparedAt.get? m.height = some m.blockHash ∨ Said c m.height m.blockHash) :
    LedgerInv S (c.emit (.broadcast m)) := by
  refine ledger.unchanged rfl rfl rfl (lastWritten_append _ _) (fun _ => mem_append_left _) ?_
  intro height a b recorded said
  rcases said.of_broadcast with old | ⟨rfl, rfl⟩
  · exact ledger.consistent height a b recorded old
  · rcases backed with prepared | before
    · have present := ledger.stored _ _ prepared
      rw [recorded] at present
      exact (Option.some.inj present).symm
    · exact ledger.consistent _ _ _ recorded before

theorem LedgerInv.decide (inv : VoteInv S c) {id : Nat} {r : BftRound} {b : ChainBlock}
    (current : c.activeRound = some ⟨id, r⟩) (proposed : r.proposedBlock = some b) (phase : r.phase = .finalized)
    : LedgerInv S (c.decide S.cfg r b) := by
  have number := (inv.round id r current).height b proposed
  have above := inv.above id r current
  have recorded := inv.committing current proposed (.inr phase)
  have file : lastWritten (c.decide S.cfg r b).effects = lastWritten c.effects := lastWritten_append _ _
  have kept (height : Int) : (c.decide S.cfg r b).localPreparedAt.get? height =
      if r.height < height then c.localPreparedAt.get? height else none := get?_above _ _ _
  refine ⟨ledger.durable, ?_, ?_, ?_, ledger.commits, ?_, ?_⟩
  · rw [file]
    exact ledger.file
  · intro height a
    rw [kept]
    intro present
    split at present
    · exact ledger.stored height a present
    · cases present
  · intro height a beyond present
    have high : r.height < height := lt_of_le_of_lt (le_max_left _ _) beyond
    rw [kept, if_pos high]
    exact ledger.current height a (above.trans high) present
  · intro height a x present said
    rcases said.of_decide number with old | ⟨rfl, rfl⟩
    · exact ledger.consistent height a x present old
    · have same := ledger.stored _ _ recorded
      rw [show c.voteLedger.prepared.get? r.height = some a from present] at same
      exact (Option.some.inj same).symm
  · exact .inr ⟨b, r.ownStateRoot, mem_append_right _ (List.mem_singleton.mpr rfl), number⟩

theorem LedgerInv.pruneLedger
    (pruned : ∀ height, height ≤ c.lastFinalizedHeight → c.localPreparedAt.get? height = none) :
    LedgerInv S (c.pruneLedger c.lastFinalizedHeight) := by
  -- Only heights without a recorded vote are dropped from the ledger.
  have said {h : Int} {a : Hex} (s : Said (c.pruneLedger c.lastFinalizedHeight) h a) : Said c h a :=
    s.of_silent rfl (silent_write _) rfl
  have dropped (h : Int) := prune_get? c.voteLedger c.lastFinalizedHeight h
  obtain ⟨durable, write⟩ := call_written ledger.durable (.prune c.lastFinalizedHeight)
  refine ⟨durable, write.file ledger.file, ?_, ?_, ?_, ?_, ?_⟩
  · intro height a recorded
    have high : c.lastFinalizedHeight < height := by
      by_contra low
      have absent := pruned height (not_lt.mp low)
      rw [show c.localPreparedAt.get? height = some a from recorded] at absent
      cases absent
    exact (dropped height).1.trans ((if_pos high).trans (ledger.stored height a recorded))
  · intro height a beyond present
    have high : c.lastFinalizedHeight < height := lt_of_le_of_lt (le_max_left _ _) beyond
    have before := (dropped height).1.symm.trans present
    rw [if_pos high] at before
    exact ledger.current height a beyond before
  · intro height a present
    have before := (dropped height).2.symm.trans present
    split at before
    · rename_i high
      exact (dropped height).1.trans ((if_pos high).trans (ledger.commits height a before))
    · cases before
  · intro height a b present s
    have before := (dropped height).1.symm.trans present
    split at before
    · exact ledger.consistent height a b before (said s)
    · cases before
  · rcases ledger.finalized with zero | ⟨b, root, decided, number⟩
    · exact .inl zero
    · exact .inr ⟨b, root, mem_append_left _ decided, number⟩

theorem LedgerInv.move (inv : VoteInv S c) (move : Move S c c') : LedgerInv S c' := by
  cases move with
  | quiet same => exact ledger.quiet same
  | clear | openSilent | round => exact ledger.unchanged rfl rfl rfl rfl (fun _ => id) ledger.consistent
  | openVoted ok rooted above free voted =>
    have recorded := ledger.recordPrepare inv above free
    exact recorded.unchanged rfl rfl rfl rfl (fun _ => id) recorded.consistent
  | recordCommit current proposed phase => exact ledger.recordCommit (inv.committing current proposed (.inl phase))
  | say licensed => exact ledger.broadcast (inv.licensed licensed)
  | decide current proposed phase => exact ledger.decide inv current proposed phase
  | pruneLedger pruned => exact ledger.pruneLedger pruned
  | notify =>
    refine ledger.unchanged rfl rfl rfl (lastWritten_append _ _) (fun _ => mem_append_left _) ?_
    intro height a b recorded said
    exact ledger.consistent height a b recorded (said.of_silent rfl (by simp [Effect.spoken]) rfl)

theorem LedgerInv.moves (inv : VoteInv S c) (sound : S.Sound) (moves : Moves S c c') : LedgerInv S c' := by
  induction moves with
  | refl => exact ledger
  | tail earlier last ih => exact ih.move (inv.moves sound earlier) last

end

theorem Moves.cut (moves : Moves S c c') {count : Nat} (low : c.effects.length ≤ count)
    (high : count ≤ c'.effects.length) :
    ∃ middle, Moves S c middle ∧ middle.effects = c'.effects.take count := by
  induction moves with
  | refl =>
    have same : count = c.effects.length := by omega
    exact ⟨c, .refl, by rw [same, take_length]⟩
  | @tail d e earlier last ih =>
    obtain ⟨added, effects, appends⟩ := last.appends
    by_cases before : count ≤ d.effects.length
    · obtain ⟨middle, reached, cut⟩ := ih before
      exact ⟨middle, reached, by rw [cut, effects, take_append_of_le_length before]⟩
    · have short := appends.short
      have whole : count = e.effects.length := by
        rw [effects, length_append] at high ⊢
        omega
      exact ⟨e, earlier.tail last, by rw [whole, take_length]⟩

end Palimesh.Bft
