import Palimesh.Contracts.Treasury

namespace Palimesh.Contracts.Treasury

open Collections Protocol Protocol.Custody Protocol.Guarded Protocol.Reentrancy List InsertionMap Function Storage

abbrev Record := Entry Storage Call Unit

/-- The call by which a signer confirmed a proposal: the proposal itself or a later confirmation. -/
def Confirms (proposalId : Nat) (account : Address) (entry : Record) : Prop :=
  entry.msg.sender = account ∧ entry.state.isSigner.read account = true ∧
    (entry.call = .confirmWithdrawal proposalId ∨
      ∃ payee amount, entry.call = .proposeWithdrawal payee amount ∧ entry.state.proposalCount = proposalId)

def Approves (proposalId : Nat) (entry : Record) : Prop :=
  entry.call = .governanceApprove proposalId ∧ entry.msg.sender = entry.state.governance

/-- Three signers of the moment have confirmed an executed proposal, and governance has approved it when it takes
    more than five percent of what is available. -/
def Authorised (entry : Record) (earlier : List Record) : Prop :=
  ∀ proposalId, entry.call = .executeWithdrawal proposalId →
    (∃ accounts : Finset Address, 3 ≤ accounts.card ∧ ∀ account ∈ accounts,
      entry.state.isSigner.read account = true ∧ ∃ before ∈ earlier, Confirms proposalId account before) ∧
    (5 * entry.state.availableBalance entry.balance < 100 * (entry.state.proposals.read proposalId).amount →
      ∃ before ∈ earlier, Approves proposalId before)

structure Seated (t : Storage) : Prop where
  vacant : t.initialized = false → t.isSigner = .empty ∧ t.owner = 0
  seats : t.initialized = true → ∀ account, t.isSigner.read account = true ↔ ∃ i, t.signers i = account
  distinct : t.initialized = true → Function.Injective t.signers

def executions (proposalId : Nat) (history : List Record) : Nat :=
  history.countP fun entry => decide (entry.call = .executeWithdrawal proposalId)

structure Noted (t : Storage) (history : List Record) : Prop where
  confirmed : ∀ proposalId account, t.confirmed.read (proposalId, account) = true →
    ∃ entry ∈ history, Confirms proposalId account entry
  approved : ∀ proposalId, (t.proposals.read proposalId).governanceApproved = true →
    ∃ entry ∈ history, Approves proposalId entry
  executed : ∀ proposalId,
    executions proposalId history = if (t.proposals.read proposalId).executed then 1 else 0

structure Sound (t : Storage) (history : List Record) : Prop where
  seated : Seated t
  total : t.pendingWithdrawals.total id = t.pendingWithdrawalTotal
  noted : Noted t history
  recorded : Recorded Authorised history

theorem credit_default : id (default : Nat) = 0 := rfl

theorem deployed_sound : Sound deployed [] where
  seated := ⟨fun _ => ⟨rfl, rfl⟩, nofun, nofun⟩
  total := rfl
  noted := ⟨nofun, nofun, fun _ => rfl⟩
  recorded := .nil

section Signers

variable {t t' : Storage} {msg : Msg}

theorem Seated.initialized (seated : Seated t) {account : Address} (signer : t.isSigner.read account = true) :
    t.initialized = true := by
  cases ready : t.initialized with
  | true => rfl
  | false =>
    rw [(seated.vacant ready).1] at signer
    cases signer

variable {signers : Fin 5 → Address}

theorem seats_ok {indexes : List (Fin 5)} (nodup : indexes.Nodup)
    (ran : indexes.foldlM (seat signers) t = .ok t') :
    t' = { t with signers := t'.signers, isSigner := t'.isSigner } ∧
      (∀ i ∈ indexes, t'.signers i = signers i ∧ t.isSigner.read (signers i) = false) ∧
      (∀ i ∉ indexes, t'.signers i = t.signers i) ∧
      (∀ account, t'.isSigner.read account = true ↔
        t.isSigner.read account = true ∨ ∃ i ∈ indexes, signers i = account) ∧
      ∀ i ∈ indexes, ∀ j ∈ indexes, signers i = signers j → i = j := by
  induction indexes generalizing t with
  | nil =>
    obtain rfl := pure_ok.mp ran
    exact ⟨rfl, by simp, by simp, by simp, by simp⟩
  | cons i rest ih =>
    obtain ⟨outside, nodup⟩ := List.nodup_cons.mp nodup
    rw [foldlM_cons] at ran
    simp only [seat, bind_ok, revertIf_ok, pure_ok] at ran
    obtain ⟨_, ⟨-, -, -, free, rfl⟩, ran⟩ := ran
    obtain ⟨same, seated, kept, flags, distinct⟩ := ih nodup ran
    have unseen : ∀ j ∈ rest, signers j ≠ signers i ∧ t.isSigner.read (signers j) = false := by
      intro j member
      have unflagged := (seated j member).2
      rw [read_set] at unflagged
      split at unflagged
      · cases unflagged
      · exact ⟨‹_›, unflagged⟩
    refine ⟨same, ?_, ?_, ?_, ?_⟩
    · intro j member
      rcases List.mem_cons.mp member with rfl | member
      · rw [kept j outside]
        exact ⟨update_self .., by simpa using free⟩
      · exact ⟨(seated j member).1, (unseen j member).2⟩
    · intro j absent
      rw [mem_cons, not_or] at absent
      rw [kept j absent.2]
      exact update_of_ne absent.1 ..
    · intro account
      rw [flags, read_set]
      by_cases seat : account = signers i
      · simp [seat]
      · rw [if_neg seat]
        simp [Ne.symm seat]
    · intro j first k second equal
      rcases List.mem_cons.mp first with rfl | before
      · rcases List.mem_cons.mp second with rfl | after
        · rfl
        · exact absurd equal.symm (unseen k after).1
      · rcases List.mem_cons.mp second with rfl | after
        · exact absurd equal (unseen j before).1
        · exact distinct j before k after equal

variable (seated : Seated t)
include seated

theorem init_seated {governance initialOwner : Address}
    (ran : t.init signers governance initialOwner = .ok t') :
    Seated t' ∧ t' = { t with
      initialized := true, owner := initialOwner, governance := governance, signers := t'.signers,
      isSigner := t'.isSigner } := by
  simp only [init, bind_ok, revertIf_ok] at ran
  obtain ⟨-, fresh, -, -, ran⟩ := ran
  obtain ⟨same, placed, -, flags, distinct⟩ := seats_ok (nodup_finRange 5) ran
  obtain ⟨none, -⟩ := seated.vacant (Bool.not_eq_true _ ▸ fresh)
  refine ⟨⟨?_, ?_, ?_⟩, same⟩
  · rw [same]
    intro ready
    cases ready
  · intro _ account
    rw [flags]
    simp only [none, read_empty, mem_finRange, true_and]
    constructor
    · rintro (flagged | ⟨i, rfl⟩)
      · cases flagged
      · exact ⟨i, (placed i (mem_finRange i)).1⟩
    · rintro ⟨i, rfl⟩
      exact .inr ⟨i, ((placed i (mem_finRange i)).1).symm⟩
  · intro _ i j equal
    rw [(placed i (mem_finRange i)).1, (placed j (mem_finRange j)).1] at equal
    exact distinct i (mem_finRange i) j (mem_finRange j) equal

theorem transferOwnership_seated {newOwner : Address} (sender : msg.sender ≠ 0)
    (ran : t.transferOwnership msg newOwner = .ok t') : Seated t' ∧ t' = { t with owner := newOwner } := by
  simp only [transferOwnership, onlyOwner, bind_ok, revertIf_ok, pure_ok] at ran
  obtain ⟨-, owner, -, -, rfl⟩ := ran
  refine ⟨{ seated with vacant := fun fresh => ?_ }, rfl⟩
  rw [(seated.vacant fresh).2] at owner
  exact absurd sender owner

theorem replaceSigner_seated {index : Nat} {newSigner : Address} (sender : msg.sender ≠ 0)
    (ran : t.replaceSigner msg index newSigner = .ok t') :
    Seated t' ∧ t' = { t with
      signers := t'.signers, isSigner := t'.isSigner, wasSignerHistorical := t'.wasSignerHistorical } := by
  simp only [replaceSigner, onlyOwner, bind_ok, revertIf_ok] at ran
  obtain ⟨-, owner, ran⟩ := ran
  split at ran
  · rename_i inside
    simp only [bind_ok, revertIf_ok, pure_ok] at ran
    obtain ⟨-, -, -, free, rfl⟩ := ran
    refine ⟨⟨fun fresh => ?_, fun ready account => ?_, fun ready i j equal => ?_⟩, rfl⟩
    · rw [(seated.vacant fresh).2] at owner
      exact absurd sender owner
    · have seats := seated.seats ready
      have distinct := seated.distinct ready
      simp only [read_set]
      constructor
      · intro flagged
        split at flagged
        · rename_i chosen
          exact ⟨⟨index, inside⟩, by rw [update_self, chosen]⟩
        · split at flagged
          · cases flagged
          · rename_i kept
            obtain ⟨i, rfl⟩ := (seats account).mp flagged
            refine ⟨i, update_of_ne ?_ ..⟩
            rintro rfl
            exact kept rfl
      · rintro ⟨i, rfl⟩
        by_cases seat : i = ⟨index, inside⟩
        · rw [seat, update_self, if_pos rfl]
        · rw [update_of_ne seat]
          split
          · rfl
          · rw [if_neg fun same => seat (distinct same)]
            exact (seats _).mpr ⟨i, rfl⟩
    · have distinct := seated.distinct ready
      have elsewhere : ∀ k, k ≠ ⟨index, inside⟩ → t.signers k ≠ newSigner := by
        intro k other same
        have signer : t.isSigner.read newSigner = true := (seated.seats ready newSigner).mpr ⟨k, same⟩
        refine free ⟨?_, signer⟩
        rintro rfl
        exact other (distinct same)
      simp only at equal
      by_cases first : i = ⟨index, inside⟩
      · by_cases second : j = ⟨index, inside⟩
        · rw [first, second]
        · rw [first, update_self, update_of_ne second] at equal
          exact absurd equal.symm (elsewhere j second)
      · by_cases second : j = ⟨index, inside⟩
        · rw [second, update_self, update_of_ne first] at equal
          exact absurd equal (elsewhere i first)
        · rw [update_of_ne first, update_of_ne second] at equal
          exact distinct equal
  · cases ran

theorem currentConfirmations_accounts (ready : t.initialized = true) (proposalId : Nat) :
    ∃ accounts : Finset Address, accounts.card = t.currentConfirmations proposalId ∧ ∀ account ∈ accounts,
      t.isSigner.read account = true ∧ t.confirmed.read (proposalId, account) = true := by
  have nodup := (((nodup_finRange 5).filter fun i => t.confirmed.read (proposalId, t.signers i))).map
    (seated.distinct ready)
  refine ⟨(((List.finRange 5).filter fun i => t.confirmed.read (proposalId, t.signers i)).map t.signers).toFinset,
    ?_, ?_⟩
  · rw [toFinset_card_of_nodup nodup, length_map, currentConfirmations,
      countP_eq_length_filter]
  · intro account member
    obtain ⟨i, flagged, rfl⟩ := List.mem_map.mp (List.mem_toFinset.mp member)
    exact ⟨(seated.seats ready _).mpr ⟨i, rfl⟩, (List.mem_filter.mp flagged).2⟩

end Signers

variable {call : Call}

section Notes

variable {t t' : Storage} {entry : Record} {history : List Record} {proposalId : Nat}

theorem executions_cons (other : entry.call ≠ .executeWithdrawal proposalId) :
    executions proposalId (entry :: history) = executions proposalId history := by
  rw [executions, executions, countP_cons, if_neg (by simpa using other), add_zero]

theorem Noted.extend (noted : Noted t history) (proposals : t'.proposals = t.proposals)
    (confirmed : t'.confirmed = t.confirmed) (quiet : ∀ proposalId, entry.call ≠ .executeWithdrawal proposalId) :
    Noted t' (entry :: history) where
  confirmed := by
    intro proposalId account flag
    rw [confirmed] at flag
    obtain ⟨earlier, member, confirms⟩ := noted.confirmed proposalId account flag
    exact ⟨earlier, mem_cons_of_mem _ member, confirms⟩
  approved := by
    intro proposalId flag
    rw [proposals] at flag
    obtain ⟨earlier, member, approves⟩ := noted.approved proposalId flag
    exact ⟨earlier, mem_cons_of_mem _ member, approves⟩
  executed := by
    intro proposalId
    rw [executions_cons (quiet proposalId), noted.executed, proposals]

variable {confirmed : InsertionMap (Nat × Address) Bool}

theorem Noted.write (noted : Noted t history) {p : Proposal} (proposals : t'.proposals = t.proposals.set proposalId p)
    (flags : t'.confirmed = confirmed) (confirms : ∀ id account, confirmed.read (id, account) = true →
      t.confirmed.read (id, account) = true ∨ Confirms id account entry) (approves : p.governanceApproved = true →
      (t.proposals.read proposalId).governanceApproved = true ∨ Approves proposalId entry)
    (executes : executions proposalId (entry :: history) = if p.executed then 1 else 0)
    (others : ∀ id, id ≠ proposalId → entry.call ≠ .executeWithdrawal id) : Noted t' (entry :: history) where
  confirmed := by
    intro id account flag
    rw [flags] at flag
    rcases confirms id account flag with old | new
    · obtain ⟨earlier, member, found⟩ := noted.confirmed id account old
      exact ⟨earlier, mem_cons_of_mem _ member, found⟩
    · exact ⟨entry, mem_cons_self, new⟩
  approved := by
    intro id flag
    rw [proposals, read_set] at flag
    have earlier : ∀ before, (t.proposals.read before).governanceApproved = true →
        ∃ found ∈ entry :: history, Approves before found := by
      intro before old
      obtain ⟨found, member, approval⟩ := noted.approved before old
      exact ⟨found, mem_cons_of_mem _ member, approval⟩
    split at flag
    · rename_i same
      subst same
      rcases approves flag with old | new
      · exact earlier id old
      · exact ⟨entry, mem_cons_self, new⟩
    · exact earlier id flag
  executed := by
    intro id
    rw [proposals, read_set]
    split
    · rename_i same
      rw [same, executes]
    · rename_i other
      rw [executions_cons (others id other), noted.executed]

theorem Noted.adjust (noted : Noted t history) {balance : Nat} {p : Proposal} {msg : Msg}
    (proposals : t'.proposals = t.proposals.set proposalId p) (flags : t'.confirmed = confirmed)
    (confirms : ∀ id account, confirmed.read (id, account) = true →
      t.confirmed.read (id, account) = true ∨ Confirms id account ⟨t, balance, (), msg, call⟩)
    (approves : p.governanceApproved = true →
      (t.proposals.read proposalId).governanceApproved = true ∨ Approves proposalId ⟨t, balance, (), msg, call⟩)
    (unpaid : p.executed = (t.proposals.read proposalId).executed) (quiet : ∀ id, call ≠ .executeWithdrawal id) :
    Noted t' (⟨t, balance, (), msg, call⟩ :: history) := by
  refine noted.write proposals flags confirms approves ?_ fun id _ => quiet id
  rw [executions_cons (quiet proposalId), noted.executed, unpaid]

end Notes

def reserve : Pending → Nat
  | .credit _ amount => amount
  | .transfer => 0

def owed (t : Storage) : Nat := t.pendingWithdrawals.total id

variable {step : Step Storage Pending}

section Calls

variable {t t' : Storage} {balance : Nat} {msg : Msg} {history : List Record} (sound : Sound t history)
include sound

theorem Sound.quiet (seated : Seated t') (credits : t'.pendingWithdrawals = t.pendingWithdrawals)
    (total : t'.pendingWithdrawalTotal = t.pendingWithdrawalTotal)
    (noted : Noted t' (⟨t, balance, (), msg, call⟩ :: history))
    (quiet : ∀ proposalId, call ≠ .executeWithdrawal proposalId) :
    Sound t' (⟨t, balance, (), msg, call⟩ :: history) ∧ owed t' = owed t := by
  refine ⟨⟨seated, by rw [credits, total, sound.total], noted, .cons ?_ sound.recorded⟩, ?_⟩
  · exact fun proposalId executes => absurd executes (quiet proposalId)
  · rw [owed, owed, credits]

theorem Sound.tune (seated : Seated t') (proposals : t'.proposals = t.proposals)
    (confirmed : t'.confirmed = t.confirmed) (credits : t'.pendingWithdrawals = t.pendingWithdrawals)
    (total : t'.pendingWithdrawalTotal = t.pendingWithdrawalTotal)
    (quiet : ∀ proposalId, call ≠ .executeWithdrawal proposalId) :
    Sound t' (⟨t, balance, (), msg, call⟩ :: history) ∧ owed t' = owed t :=
  sound.quiet seated credits total (sound.noted.extend proposals confirmed quiet) quiet

theorem setGovernance_sound {governance : Address} (ran : t.setGovernance msg governance = .ok t') :
    Sound t' (⟨t, balance, (), msg, .setGovernance governance⟩ :: history) ∧ owed t' = owed t := by
  simp only [setGovernance, bind_ok, pure_ok] at ran
  obtain ⟨-, -, -, -, rfl⟩ := ran
  have seated : Seated { t with governance := governance } :=
    ⟨sound.seated.vacant, sound.seated.seats, sound.seated.distinct⟩
  exact sound.tune seated rfl rfl rfl rfl (by simp)

theorem proposeWithdrawal_sound {payee : Address} {amount : Nat}
    (ran : t.proposeWithdrawal balance msg payee amount = .ok t') :
    Sound t' (⟨t, balance, (), msg, .proposeWithdrawal payee amount⟩ :: history) ∧ owed t' = owed t := by
  simp only [proposeWithdrawal, onlySigner, bind_ok, revertIf_ok, pure_ok] at ran
  obtain ⟨-, signer, -, -, -, -, -, -, _, -, rfl⟩ := ran
  have seated : Seated t := sound.seated
  refine sound.quiet { seated with } rfl rfl ?_ (by simp)
  refine sound.noted.adjust rfl rfl (fun id account flag => ?_) .inl rfl (by simp)
  rw [read_set] at flag
  split at flag
  · rename_i own
    cases own
    exact .inr ⟨rfl, Bool.not_eq_false _ ▸ signer, .inr ⟨payee, amount, rfl, rfl⟩⟩
  · exact .inl flag

theorem confirmWithdrawal_sound (ran : t.confirmWithdrawal msg proposalId = .ok t') :
    Sound t' (⟨t, balance, (), msg, .confirmWithdrawal proposalId⟩ :: history) ∧ owed t' = owed t := by
  simp only [confirmWithdrawal, onlySigner, bind_ok, revertIf_ok, pure_ok] at ran
  obtain ⟨-, signer, -, -, -, -, -, -, _, -, rfl⟩ := ran
  have seated : Seated t := sound.seated
  refine sound.quiet { seated with } rfl rfl ?_ (by simp)
  refine sound.noted.adjust rfl rfl (fun id account flag => ?_) .inl rfl (by simp)
  rw [read_set] at flag
  split at flag
  · rename_i own
    cases own
    exact .inr ⟨rfl, Bool.not_eq_false _ ▸ signer, .inl rfl⟩
  · exact .inl flag

theorem governanceApprove_sound (ran : t.governanceApprove msg proposalId = .ok t') :
    Sound t' (⟨t, balance, (), msg, .governanceApprove proposalId⟩ :: history) ∧ owed t' = owed t := by
  simp only [governanceApprove, bind_ok, revertIf_ok, pure_ok] at ran
  obtain ⟨-, governance, -, -, rfl⟩ := ran
  have seated : Seated t := sound.seated
  refine sound.quiet { seated with } rfl rfl ?_ (by simp)
  exact sound.noted.adjust rfl rfl (fun _ _ => .inl) (fun _ => .inr ⟨rfl, Decidable.not_not.mp governance⟩) rfl (by simp)

theorem executeWithdrawal_sound (funds : owed t ≤ balance)
    (ran : t.executeWithdrawal balance msg proposalId = .ok step) :
    Sound step.state (⟨t, balance, (), msg, .executeWithdrawal proposalId⟩ :: history) ∧
      owed step.state + step.paid ≤ balance ∧ step.needs reserve = step.paid := by
  simp only [executeWithdrawal, onlySigner, bind_ok, revertIf_ok, pure_ok, checkedMul_ok] at ran
  obtain ⟨-, signer, -, -, -, unpaid, -, enough, -, covered, _, ⟨-, rfl⟩, -, capped, rfl⟩ := ran
  have seated : Seated t := sound.seated
  have ready := seated.initialized (Bool.not_eq_false _ ▸ signer)
  have authorised : Authorised ⟨t, balance, (), msg, .executeWithdrawal proposalId⟩ history := by
    intro id same
    cases same
    constructor
    · obtain ⟨accounts, card, confirmed⟩ := currentConfirmations_accounts seated ready proposalId
      refine ⟨accounts, ?_, fun account member => ?_⟩
      · rw [card]
        exact Nat.le_of_not_lt enough
      · obtain ⟨seat, flag⟩ := confirmed account member
        exact ⟨seat, sound.noted.confirmed proposalId account flag⟩
    · intro large
      apply sound.noted.approved proposalId
      rw [← Bool.not_eq_false]
      intro unapproved
      refine capped ⟨?_, unapproved⟩
      simp only [spendingCapBps] at large ⊢
      omega
  refine ⟨⟨{ seated with }, sound.total, ?_, .cons authorised sound.recorded⟩, ?_, rfl⟩
  · refine sound.noted.write rfl rfl (fun _ _ => .inl) .inl ?_ ?_
    · have never := sound.noted.executed proposalId
      rw [if_neg unpaid] at never
      rw [executions, countP_cons, ← executions, never]
      simp
    · intro id other same
      cases same
      exact other rfl
  · have total := sound.total
    simp only [availableBalance] at covered
    simp only [Step.state, Step.paid, owed, total] at funds ⊢
    split at covered <;> omega

theorem withdrawPayments_sound (ran : t.withdrawPayments msg = .ok step) :
    Sound step.state (⟨t, balance, (), msg, .withdrawPayments⟩ :: history) ∧
      owed step.state + step.paid = owed t ∧ step.needs reserve = 0 := by
  simp only [withdrawPayments, bind_ok, pure_ok, checkedSub_ok] at ran
  obtain ⟨-, -, _, ⟨-, rfl⟩, rfl⟩ := ran
  have seated : Seated t := sound.seated
  have exchanged := t.pendingWithdrawals.total_set credit_default msg.sender 0
  have total := sound.total
  simp only [id_eq] at exchanged
  refine ⟨⟨{ seated with }, ?_, ?_, .cons (by simp [Authorised]) sound.recorded⟩, ?_, rfl⟩
  · simp only [Step.state]
    omega
  · exact sound.noted.extend rfl rfl (by simp)
  · exact exchanged

end Calls

theorem resume_sound {t : Storage} {pending : Pending} {ok : Bool}
    {history : List Record} (sound : Sound t history) (ran : t.resume pending ok = .ok step) :
    Sound step.state history ∧ owed step.state ≤ owed t + (if ok then 0 else reserve pending) ∧ step.paid = 0 ∧
      step.needs reserve = 0 := by
  cases ok with
  | true =>
    cases pending with
    | credit payee amount =>
      cases ran
      exact ⟨sound, le_rfl, rfl, rfl⟩
    | transfer =>
      cases ran
      exact ⟨sound, le_rfl, rfl, rfl⟩
  | false =>
    cases pending with
    | credit payee amount =>
      simp only [resume, bind_ok, pure_ok, checkedAdd_ok] at ran
      obtain ⟨_, ⟨-, rfl⟩, _, ⟨-, rfl⟩, rfl⟩ := ran
      have seated : Seated t := sound.seated
      have total := sound.total
      have exchanged := t.pendingWithdrawals.total_set credit_default payee (t.pendingWithdrawals.read payee + amount)
      simp only [id_eq] at exchanged
      refine ⟨⟨{ seated with }, ?_, ?_, sound.recorded⟩, ?_, rfl, rfl⟩
      · simp only [Step.state]
        omega
      · exact ⟨sound.noted.confirmed, sound.noted.approved, sound.noted.executed⟩
      · show (t.pendingWithdrawals.set payee (t.pendingWithdrawals.read payee + amount)).total id ≤
          t.pendingWithdrawals.total id + amount
        omega
    | transfer => cases ran

theorem treasury_solvent : Solvent contract setting (fun t _ history => Sound t history) owed reserve (fun _ => 0) where
  call := by
    intro w msg call step below covered callable paid ran
    obtain ⟨sound, funds, idle⟩ := covered
    obtain rfl : below = 0 := idle fun _ => rfl
    have none : step.needs (fun _ => 0) = 0 := by cases step <;> rfl
    have quietly : ∀ {result : Result Revert Storage}, result.map .done = .ok step →
        (∀ t', result = .ok t' → Sound t' (w.enter msg call).history ∧ owed t' = owed w.state) →
        Accounted (fun t _ history => Sound t history) owed reserve (fun _ => 0) (w.balance + msg.value) 0 w.env
          (w.enter msg call).history step := by
      intro result done kept
      obtain ⟨t', finished, rfl⟩ := map_ok.mp done
      obtain ⟨sound, same⟩ := kept t' finished
      refine ⟨sound, ?_, Nat.le_refl _⟩
      simp only [Step.state, Step.paid, Step.needs, same]
      omega
    cases call with
    | init signers governance initialOwner =>
      refine quietly ran fun t' done => ?_
      obtain ⟨seated, same⟩ := init_seated sound.seated done
      apply sound.tune seated <;> first | rw [same] | simp
    | proposeWithdrawal payee amount => exact quietly ran fun _ => proposeWithdrawal_sound sound
    | confirmWithdrawal proposalId => exact quietly ran fun _ => confirmWithdrawal_sound sound
    | governanceApprove proposalId => exact quietly ran fun _ => governanceApprove_sound sound
    | setGovernance governance => exact quietly ran fun _ => setGovernance_sound sound
    | transferOwnership newOwner =>
      refine quietly ran fun t' done => ?_
      obtain ⟨seated, rfl⟩ := transferOwnership_seated sound.seated callable.2 done
      exact sound.tune seated rfl rfl rfl rfl (by simp)
    | replaceSigner index newSigner =>
      refine quietly ran fun t' done => ?_
      obtain ⟨seated, same⟩ := replaceSigner_seated sound.seated callable.2 done
      apply sound.tune seated <;> first | rw [same] | simp
    | executeWithdrawal proposalId =>
      obtain ⟨sound, covered, reserved⟩ := executeWithdrawal_sound sound (by omega) ran
      exact ⟨sound, by omega, Nat.le_of_eq reserved⟩
    | withdrawPayments =>
      obtain ⟨sound, covered, reserved⟩ := withdrawPayments_sound sound ran
      exact ⟨sound, by omega, by omega⟩
    | receive =>
      cases ran
      have quiet : ∀ proposalId, Call.receive ≠ .executeWithdrawal proposalId := by simp
      have kept : Sound w.state (w.enter msg .receive).history := (sound.tune sound.seated rfl rfl rfl rfl quiet).1
      refine ⟨kept, ?_, Nat.le_refl _⟩
      simp only [Step.state, Step.paid, Step.needs]
      omega
  resume := by
    intro w pending ok step below covered ran
    obtain ⟨sound, funds, -⟩ := covered
    obtain ⟨kept, bound, free, reserved⟩ := resume_sound sound ran
    have none : step.needs (fun _ => 0) = 0 := by cases step <;> rfl
    refine ⟨kept, ?_, by rw [reserved]; exact Nat.zero_le _⟩
    cases ok <;> simp at * <;> omega
  passes := fun kept _ => kept

def refusedRun : List (Event (Msg × Call) (Outside Unit)) :=
  [.call (⟨8, 0⟩, .init (fun i => i + 1) 9 8),
    .call (⟨20, 1000⟩, .receive),
    .call (⟨1, 0⟩, .proposeWithdrawal 7 40),
    .call (⟨2, 0⟩, .confirmWithdrawal 0),
    .call (⟨3, 0⟩, .confirmWithdrawal 0),
    .call (⟨1, 0⟩, .executeWithdrawal 0),
    .call (⟨1, 0⟩, .executeWithdrawal 0),
    .answer false,
    .call (⟨7, 0⟩, .withdrawPayments)]

def refusedMachine : Machine (World Storage Call Unit) Pending :=
  refusedRun.foldl (Machine.step contract.component) ⟨.fresh deployed 0 100 (), []⟩

end Palimesh.Contracts.Treasury
