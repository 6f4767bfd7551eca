import Palimesh.Contracts.RollupStateManager

namespace Palimesh.Contracts.RollupStateManager

open Collections Protocol Protocol.Custody Protocol.Guarded Protocol.Reentrancy List Storage Bool OutputChallenge

variable {β : Type} [DecidableEq β] [Inhabited β]

abbrev Record (β : Type) := Entry (Storage β) (Call β) BlockTime

structure Bond where
  owner : Address
  amount : Nat
deriving DecidableEq

section Held

variable (proposal : OutputProposal β) (challenge : OutputChallenge)

def OutputProposal.Live : Prop := proposal.l1Timestamp ≠ 0 ∧ proposal.finalized = false

instance : Decidable proposal.Live := inferInstanceAs (Decidable (_ ∧ _))

def OutputChallenge.Open : Prop := challenge.createdAt ≠ 0 ∧ challenge.resolved = false

instance : Decidable challenge.Open := inferInstanceAs (Decidable (_ ∧ _))

def OutputProposal.escrow : Bond := ⟨proposal.proposer, proposal.bond⟩

def OutputChallenge.escrow : Bond := ⟨challenge.challenger, challenge.bond⟩

def OutputProposal.held : List Bond := if proposal.Live then [proposal.escrow] else []

def OutputChallenge.held : List Bond := if challenge.Open then [challenge.escrow] else []

def OutputProposal.heldBond : Nat := if proposal.Live then proposal.bond else 0

def OutputChallenge.heldBond : Nat := if challenge.Open then challenge.bond else 0

end Held

def owed (s : Storage β) : Nat :=
  s.outputs.total OutputProposal.heldBond + s.challenges.total OutputChallenge.heldBond +
    s.pendingWithdrawals.total id

section Ledger

variable (l2BlockNumber : Nat) (entry : Record β)

def proposerPosts : Option Bond :=
  match entry.call with
  | .submitOutputRoot number _ _ => if number = l2BlockNumber then some ⟨entry.msg.sender, entry.msg.value⟩ else none
  | _ => none

def proposerReleases : Option Bond :=
  match entry.call with
  | .finalizeOutput number => if number = l2BlockNumber then some (entry.state.outputs.read number).escrow else none
  | .resolveChallenge number correctStateRoot =>
    if number = l2BlockNumber ∧ (entry.state.outputs.read number).l2StateRoot ≠ correctStateRoot then
      some (entry.state.outputs.read number).escrow
    else none
  | _ => none

def challengerPosts : Option Bond :=
  match entry.call with
  | .challengeOutputRoot number => if number = l2BlockNumber then some ⟨entry.msg.sender, entry.msg.value⟩ else none
  | _ => none

def challengerReleases : Option Bond :=
  match entry.call with
  | .resolveChallenge number _ => if number = l2BlockNumber then some (entry.state.challenges.read number).escrow else none
  | _ => none

end Ledger

variable (s : Storage β)

/-- Every bond that was posted for a block was released by one call, in the order of posting, except
    for the last one while the contract holds it. -/
structure Settled (history : List (Record β)) : Prop where
  proposer : ∀ n, history.filterMap (proposerPosts n) = (s.outputs.read n).held ++ history.filterMap (proposerReleases n)
  challenger : ∀ n, history.filterMap (challengerPosts n) =
    (s.challenges.read n).held ++ history.filterMap (challengerReleases n)

/-- What the records of one block keep: an open challenge is about a live output, and whoever is to be
    paid exists. -/
structure Coherent (output : OutputProposal β) (challenge : OutputChallenge) : Prop where
  disputed : challenge.Open → output.Live ∧ output.challenged = true
  proposed : output.Live → output.proposer ≠ 0 ∧ 0 < output.bond
  contested : challenge.Open → challenge.challenger ≠ 0 ∧ 0 < challenge.bond

def Consistent : Prop := ∀ n, Coherent (s.outputs.read n) (s.challenges.read n)

/-- Without an owner nothing can be submitted, and with one the bonds are positive. -/
def Priced : Prop :=
  if s.initialized = true then 0 < s.proposerBond ∧ 0 < s.challengerBond
  else s.owner = 0 ∧ (∀ account, s.allowedProposers.read account = false) ∧ ∀ n, (s.outputs.read n).l1Timestamp = 0

def Sound (_ : BlockTime) (history : List (Record β)) : Prop :=
  Consistent s ∧ Priced s ∧ Settled s history

theorem deployed_sound (now : BlockTime) : Sound (deployed : Storage β) now [] := by
  refine ⟨fun _ => ⟨?_, ?_, ?_⟩, ?_, ⟨fun _ => rfl, fun _ => rfl⟩⟩
  · exact fun opened => absurd rfl opened.1
  · exact fun live => absurd rfl live.1
  · exact fun opened => absurd rfl opened.1
  · exact ⟨rfl, fun _ => rfl, fun _ => rfl⟩

def Call.block : Call β → Option Nat
  | .submitOutputRoot n _ _ | .challengeOutputRoot n | .resolveChallenge n _ | .finalizeOutput n => some n
  | _ => none

inductive Turn (msg : Msg) (n : Nat) (output : OutputProposal β) (challenge : OutputChallenge) :
    Call β → OutputProposal β → OutputChallenge → Prop
  | submitted {outputRoot l2StateRoot : β} {output' : OutputProposal β} (free : output.l1Timestamp = 0)
      (live : output'.Live) (escrow : output'.escrow = ⟨msg.sender, msg.value⟩) (positive : 0 < msg.value) :
      Turn msg n output challenge (.submitOutputRoot n outputRoot l2StateRoot) output' challenge
  | challenged {challenge' : OutputChallenge} (live : output.Live) (free : output.challenged = false)
      (opened : challenge'.Open) (escrow : challenge'.escrow = ⟨msg.sender, msg.value⟩) (positive : 0 < msg.value) :
      Turn msg n output challenge (.challengeOutputRoot n) { output with challenged := true } challenge'
  | resolved {correctStateRoot : β} {challenge' : OutputChallenge} (opened : challenge.Open)
      (closed : challenge'.resolved = true) :
      Turn msg n output challenge (.resolveChallenge n correctStateRoot)
        (if output.l2StateRoot = correctStateRoot then output else default) challenge'
  | finalized (live : output.Live) (settled : output.challenged = true → challenge.resolved = true) :
      Turn msg n output challenge (.finalizeOutput n) { output with finalized := true } challenge

inductive Change (msg : Msg) (call : Call β) (s' : Storage β) : Prop
  | kept (quiet : call.block = none) (outputs : s'.outputs = s.outputs) (challenges : s'.challenges = s.challenges)
  | turned {n : Nat} {output : OutputProposal β} {challenge : OutputChallenge}
      (turn : Turn msg n (s.outputs.read n) (s.challenges.read n) call output challenge)
      (outputs : s.outputs.Replaced n output s'.outputs) (challenges : s.challenges.Replaced n challenge s'.challenges)

variable {s s' : Storage β} {now : BlockTime} {call : Call β} {msg : Msg} {balance n : Nat} {history : List (Record β)}
  {step : Step (Storage β) Pending} {output output' : OutputProposal β} {challenge challenge' : OutputChallenge}

omit [DecidableEq β] in
theorem default_gone : ¬ (default : OutputProposal β).Live := fun live => live.1 rfl

omit [DecidableEq β] [Inhabited β] in
theorem finalized_gone : ¬ { output with finalized := true }.Live := fun live => by cases live.2

theorem not_open (closed : challenge.resolved = true) : ¬ challenge.Open := fun opened => by simp [opened.2] at closed

theorem Turn.coherent (coherent : Coherent output challenge) (sender : msg.sender ≠ 0)
    (turn : Turn msg n output challenge call output' challenge') : Coherent output' challenge' := by
  obtain ⟨disputed, proposed, contested⟩ := coherent
  cases turn with
  | submitted free live escrow positive =>
    obtain ⟨owner, amount⟩ := Bond.mk.inj escrow
    -- the block had no output, so it has no open challenge either
    refine ⟨fun opened => absurd free (disputed opened).1.1, fun _ => ?_, contested⟩
    rw [owner, amount]
    exact ⟨sender, positive⟩
  | challenged live free opened escrow positive =>
    obtain ⟨owner, amount⟩ := Bond.mk.inj escrow
    refine ⟨fun _ => ⟨live, rfl⟩, fun _ => proposed live, fun _ => ?_⟩
    rw [owner, amount]
    exact ⟨sender, positive⟩
  | resolved opened closed =>
    refine ⟨fun again => absurd again (not_open closed), ?_, fun again => absurd again (not_open closed)⟩
    split
    · exact proposed
    · exact fun live => absurd live default_gone
  | finalized live settled =>
    refine ⟨fun opened => ?_, fun again => absurd again finalized_gone, contested⟩
    exact absurd opened (not_open (settled (disputed opened).2))

theorem Change.consistent (consistent : Consistent s) (sender : msg.sender ≠ 0) (change : Change s msg call s') :
    Consistent s' := by
  intro m
  cases change with
  | kept quiet outputs challenges =>
    rw [outputs, challenges]
    exact consistent m
  | @turned n _ _ turn outputs challenges =>
    rw [outputs.read, challenges.read]
    split
    · exact turn.coherent (consistent n) sender
    · exact consistent m

omit [DecidableEq β] [Inhabited β] in
theorem ledger_cons {posts releases : Record β → Option Bond} {before after : List Bond} (entry : Record β)
    (balanced : history.filterMap posts = before ++ history.filterMap releases)
    (exchanged : (posts entry).toList ++ before = after ++ (releases entry).toList) :
    (entry :: history).filterMap posts = after ++ (entry :: history).filterMap releases := by
  simp only [filterMap_eq_flatMap_toList, flatMap_cons] at balanced ⊢
  rw [balanced, ← append_assoc, exchanged, append_assoc]

/-- What is posted joins what was held, and what is released leaves what is held. -/
def Exchanges (entry : Record β) (n : Nat) (output output' : OutputProposal β) (challenge challenge' : OutputChallenge) :
    Prop :=
  (proposerPosts n entry).toList ++ output.held = output'.held ++ (proposerReleases n entry).toList ∧
    (challengerPosts n entry).toList ++ challenge.held = challenge'.held ++ (challengerReleases n entry).toList

theorem silent (entry : Record β) (away : entry.call.block ≠ some n) : Exchanges entry n output output challenge challenge := by
  obtain ⟨s, balance, now, msg, call⟩ := entry
  cases call with
  | submitOutputRoot m | challengeOutputRoot m | resolveChallenge m | finalizeOutput m =>
    have other : m ≠ n := fun same => away (congrArg some same)
    simp [Exchanges, proposerPosts, proposerReleases, challengerPosts, challengerReleases, other]
  | _ => simp [Exchanges, proposerPosts, proposerReleases, challengerPosts, challengerReleases]

theorem Turn.exchanges (coherent : Coherent (s.outputs.read n) (s.challenges.read n))
    (turn : Turn msg n (s.outputs.read n) (s.challenges.read n) call output' challenge') :
    Exchanges ⟨s, balance, now, msg, call⟩ n (s.outputs.read n) output' (s.challenges.read n) challenge' := by
  simp only [Exchanges, OutputProposal.held, held]
  cases turn with
  | submitted free live escrow positive =>
    have gone : ¬ (s.outputs.read n).Live := fun live => live.1 free
    simp [proposerPosts, proposerReleases, challengerPosts, challengerReleases, gone, live, escrow]
  | challenged live free opened escrow positive =>
    have closed : ¬ (s.challenges.read n).Open := fun opened => by simp [(coherent.disputed opened).2] at free
    have kept : { s.outputs.read n with challenged := true }.Live := live
    simp [proposerPosts, proposerReleases, challengerPosts, challengerReleases, closed, opened, escrow, live, kept,
      OutputProposal.escrow]
  | @resolved correctStateRoot _ opened closed =>
    have live := (coherent.disputed opened).1
    by_cases correct : (s.outputs.read n).l2StateRoot = correctStateRoot
    · simp [proposerPosts, proposerReleases, challengerPosts, challengerReleases, opened, not_open closed, correct]
    · simp [proposerPosts, proposerReleases, challengerPosts, challengerReleases, opened, not_open closed, correct, live,
        default_gone]
  | finalized live settled =>
    simp [proposerPosts, proposerReleases, challengerPosts, challengerReleases, live, finalized_gone]

theorem Turn.block (turn : Turn msg n output challenge call output' challenge') : call.block = some n := by
  cases turn <;> rfl

theorem Change.exchanges (consistent : Consistent s) (change : Change s msg call s') (m : Nat) :
    Exchanges ⟨s, balance, now, msg, call⟩ m (s.outputs.read m) (s'.outputs.read m) (s.challenges.read m)
      (s'.challenges.read m) := by
  cases change with
  | kept quiet outputs challenges =>
    rw [outputs, challenges]
    exact silent _ (by simp [quiet])
  | @turned n _ _ turn outputs challenges =>
    rw [outputs.read, challenges.read]
    split
    · rename_i here
      rw [here]
      exact turn.exchanges (consistent n)
    · rename_i other
      refine silent _ ?_
      rw [turn.block]
      exact fun same => other (Option.some.inj same).symm

theorem Change.settled (consistent : Consistent s) (settled : Settled s history) (change : Change s msg call s') :
    Settled s' (⟨s, balance, now, msg, call⟩ :: history) where
  proposer m := ledger_cons _ (settled.proposer m) (change.exchanges consistent m).1
  challenger m := ledger_cons _ (settled.challenger m) (change.exchanges consistent m).2

section Functions

def reserve : Pending → Nat
  | .rewarded _ amount _ | .credit _ amount | .finalized _ _ amount => amount
  | .transfer => 0

def due : Pending → Nat
  | .rewarded _ _ insuranceAmount => insuranceAmount
  | _ => 0

/-- A call changes the records as `Change` says, keeps the prices, and pays and owes no more than it
    received and owed. -/
structure Effect (s : Storage β) (msg : Msg) (call : Call β) (step : Step (Storage β) Pending) : Prop where
  change : Change s msg call step.state
  priced : Priced step.state
  within : owed step.state + step.paid + step.needs due ≤ owed s + msg.value
  reserved : step.needs reserve ≤ step.paid

section

omit [DecidableEq β]

theorem output_default : (default : OutputProposal β).heldBond = 0 := rfl

theorem challenge_default : (default : OutputChallenge).heldBond = 0 := rfl

theorem credit_default : id (default : Nat) = 0 := rfl

theorem Priced.bonds (priced : Priced s) (ready : s.initialized = true) : 0 < s.proposerBond ∧ 0 < s.challengerBond := by
  rwa [Priced, if_pos ready] at priced

structure Steady (s s' : Storage β) : Prop where
  initialized : s'.initialized = s.initialized
  proposerBond : s'.proposerBond = s.proposerBond
  challengerBond : s'.challengerBond = s.challengerBond
  credits : s'.pendingWithdrawals = s.pendingWithdrawals

theorem Priced.keep (priced : Priced s) (ready : s.initialized = true) (steady : Steady s s') : Priced s' := by
  rw [Priced, steady.initialized, if_pos ready, steady.proposerBond, steady.challengerBond]
  exact priced.bonds ready

theorem Priced.blank (priced : Priced s) (fresh : s.initialized = false) :
    s.owner = 0 ∧ (∀ account, s.allowedProposers.read account = false) ∧ ∀ n, (s.outputs.read n).l1Timestamp = 0 := by
  rwa [Priced, if_neg (by simp [fresh])] at priced

theorem Priced.of_output (priced : Priced s) {n : Nat} (present : (s.outputs.read n).l1Timestamp ≠ 0) :
    s.initialized = true := by
  by_contra fresh
  exact present ((priced.blank (eq_false_of_not_eq_true fresh)).2.2 n)

theorem Priced.of_owner (priced : Priced s) (sender : msg.sender ≠ 0) (ran : s.onlyOwner msg = .ok ()) :
    s.initialized = true := by
  by_contra fresh
  have owner : msg.sender = s.owner := not_not.mp (revertIf_ok.mp ran)
  exact sender (owner.trans (priced.blank (eq_false_of_not_eq_true fresh)).1)

theorem owed_records (outputs : s.outputs.Replaced n output s'.outputs)
    (challenges : s.challenges.Replaced n challenge s'.challenges)
    (credits : s'.pendingWithdrawals = s.pendingWithdrawals) :
    owed s' + (s.outputs.read n).heldBond + (s.challenges.read n).heldBond =
      owed s + output.heldBond + challenge.heldBond := by
  have first := outputs.total output_default
  have second := challenges.total challenge_default
  rw [owed, owed, credits]
  omega

omit [Inhabited β] in
theorem owed_credits {account : Address} {credit : Nat} (outputs : s'.outputs = s.outputs)
    (challenges : s'.challenges = s.challenges)
    (credits : s'.pendingWithdrawals = s.pendingWithdrawals.set account credit) :
    owed s' + s.pendingWithdrawals.read account = owed s + credit := by
  have exchanged := s.pendingWithdrawals.total_set credit_default account credit
  simp only [id_eq] at exchanged
  rw [owed, owed, outputs, challenges, credits]
  omega

end

theorem Effect.tune (quiet : call.block = none) (priced : Priced s') (outputs : s'.outputs = s.outputs)
    (challenges : s'.challenges = s.challenges) (credits : s'.pendingWithdrawals = s.pendingWithdrawals) :
    Effect s msg call (.done s') := by
  refine ⟨.kept quiet outputs challenges, priced, ?_, le_rfl⟩
  simp only [Step.state, Step.paid, Step.needs, owed, outputs, challenges, credits]
  omega

theorem submitOutputRoot_effect {outputRoot l2StateRoot : β} (priced : Priced s)
    (ran : s.submitOutputRoot now msg n outputRoot l2StateRoot = .ok s') :
    Effect s msg (.submitOutputRoot n outputRoot l2StateRoot) (.done s') := by
  simp only [submitOutputRoot, bind_ok, revertIf_ok, pure_ok] at ran
  obtain ⟨-, allowed, -, enough, -, exact, -, -, -, free, same⟩ := ran
  let proposal : OutputProposal β := ⟨outputRoot, l2StateRoot, n, now.1.toNat, msg.sender, false, false, msg.value⟩
  have outputs : s.outputs.Replaced n proposal s'.outputs := .set (by rw [← same])
  have challenges : s.challenges.Replaced n (s.challenges.read n) s'.challenges := .same (by rw [← same])
  have steady : Steady s s' := by rw [← same]; exact ⟨rfl, rfl, rfl, rfl⟩
  have ready : s.initialized = true := by
    by_contra fresh
    exact allowed ((priced.blank (eq_false_of_not_eq_true fresh)).2.1 msg.sender)
  have free : (s.outputs.read n).l1Timestamp = 0 := not_not.mp free
  have live : proposal.Live := ⟨Nat.ne_of_gt now.2, rfl⟩
  have positive : 0 < msg.value := Nat.lt_of_lt_of_le (priced.bonds ready).1 (Nat.le_of_not_lt enough)
  refine ⟨.turned (.submitted free live rfl positive) outputs challenges, priced.keep ready steady, ?_, Nat.le_refl _⟩
  have exchanged := owed_records outputs challenges steady.credits
  have gone : ¬ (s.outputs.read n).Live := fun live => live.1 free
  have paid : proposal.bond = msg.value := rfl
  simp only [OutputProposal.heldBond, if_neg gone, if_pos live] at exchanged
  simp only [Step.state, Step.paid, Step.needs]
  omega

omit [DecidableEq β] [Inhabited β] in
theorem payOrCredit_pays {payee : Address} {amount : Nat} {pending : Pending} {rest : Step (Storage β) Pending}
    (positive : 0 < amount) (someone : payee ≠ 0) :
    s.payOrCredit payee amount pending rest = .pay s payee amount pending :=
  if_neg (not_or.mpr ⟨Nat.ne_of_gt positive, someone⟩)

def challengerReward (totalSlash : Nat) : Nat := totalSlash * slashChallengerBps / 10000

def insuranceAmount (totalSlash : Nat) : Nat :=
  totalSlash - totalSlash * slashBurnBps / 10000 - challengerReward totalSlash

theorem shares_le (totalSlash : Nat) : challengerReward totalSlash + insuranceAmount totalSlash ≤ totalSlash := by
  simp only [insuranceAmount, challengerReward, slashBurnBps, slashChallengerBps]
  omega

theorem withdrawPayments_effect (priced : Priced s) (ran : s.withdrawPayments msg = .ok step) :
    Effect s msg .withdrawPayments step := by
  simp only [withdrawPayments, bind_ok, pure_ok] at ran
  obtain ⟨-, -, rfl⟩ := ran
  refine ⟨.kept rfl rfl rfl, priced, ?_, Nat.zero_le _⟩
  have cleared : owed { s with pendingWithdrawals := s.pendingWithdrawals.set msg.sender 0 } +
      s.pendingWithdrawals.read msg.sender = owed s + 0 := owed_credits rfl rfl rfl
  simp only [Step.state, Step.paid, Step.needs, due]
  omega

theorem owner_effect (quiet : call.block = none) (priced : Priced s) (sender : msg.sender ≠ 0)
    (owner : s.onlyOwner msg = .ok ()) (steady : Steady s s') (outputs : s'.outputs = s.outputs)
    (challenges : s'.challenges = s.challenges) : Effect s msg call (.done s') :=
  .tune quiet (priced.keep (priced.of_owner sender owner) steady) outputs challenges steady.credits

variable (consistent : Consistent s)
include consistent

theorem challengeOutputRoot_effect (priced : Priced s) (ran : s.challengeOutputRoot now msg n = .ok s')
    : Effect s msg (.challengeOutputRoot n) (.done s') := by
  simp only [challengeOutputRoot, bind_ok, revertIf_ok, pure_ok, checkedAdd_ok] at ran
  obtain ⟨-, present, -, unsettled, -, unchallenged, _, -, -, -, -, enough, -, -, deadline, -, same⟩ := ran
  let challenge : OutputChallenge := ⟨n, msg.sender, msg.value, now.1.toNat, deadline % 2 ^ 64, false, false⟩
  have outputs : s.outputs.Replaced n { s.outputs.read n with challenged := true } s'.outputs := .set (by rw [← same])
  have challenges : s.challenges.Replaced n challenge s'.challenges := .set (by rw [← same])
  have steady : Steady s s' := by rw [← same]; exact ⟨rfl, rfl, rfl, rfl⟩
  have ready := priced.of_output present
  have live : (s.outputs.read n).Live := ⟨present, eq_false_of_not_eq_true unsettled⟩
  have free : (s.outputs.read n).challenged = false := eq_false_of_not_eq_true unchallenged
  have closed : ¬ (s.challenges.read n).Open := fun opened => unchallenged ((consistent n).disputed opened).2
  have opened : challenge.Open := ⟨Nat.ne_of_gt now.2, rfl⟩
  have positive : 0 < msg.value := Nat.lt_of_lt_of_le (priced.bonds ready).2 (Nat.le_of_not_lt enough)
  refine ⟨.turned (.challenged live free opened rfl positive) outputs challenges, priced.keep ready steady, ?_,
    Nat.le_refl _⟩
  have exchanged := owed_records outputs challenges steady.credits
  have held : { s.outputs.read n with challenged := true }.heldBond = (s.outputs.read n).heldBond := rfl
  simp only [held, heldBond, if_neg closed, if_pos opened] at exchanged
  have paid : challenge.bond = msg.value := rfl
  simp only [Step.state, Step.paid, Step.needs]
  omega

omit [DecidableEq β] in
theorem finalizeOutput_ok (ran : s.finalizeOutput now n = .ok step) :
    (s.outputs.read n).Live ∧ ((s.outputs.read n).challenged = true → (s.challenges.read n).resolved = true) ∧
      ∃ s', s'.outputs = s.outputs.set n { s.outputs.read n with finalized := true } ∧ s'.challenges = s.challenges ∧
        Steady s s' ∧ s'.lastSubmittedBlock = s.lastSubmittedBlock ∧
        step = .pay s' (s.outputs.read n).proposer (s.outputs.read n).bond
          (.finalized n (s.outputs.read n).proposer (s.outputs.read n).bond) := by
  simp only [finalizeOutput, bind_ok, revertIf_ok] at ran
  obtain ⟨-, present, -, unsettled, ran⟩ := ran
  have live : (s.outputs.read n).Live := ⟨present, eq_false_of_not_eq_true unsettled⟩
  obtain ⟨someone, positive⟩ := (consistent n).proposed live
  have settled : (s.outputs.read n).challenged = true → (s.challenges.read n).resolved = true := by
    intro challenged
    rw [if_pos challenged] at ran
    simp only [bind_ok, revertIf_ok] at ran
    obtain ⟨-, resolved, -⟩ := ran
    exact not_eq_false _ ▸ resolved
  refine ⟨live, settled, { s with outputs := s.outputs.set n { s.outputs.read n with finalized := true } }, rfl, rfl,
    ⟨rfl, rfl, rfl, rfl⟩, rfl, ?_⟩
  rw [← payOrCredit_pays positive someone]
  split at ran
  · simp only [bind_ok, pure_ok] at ran
    obtain ⟨-, -, paid⟩ := ran
    exact paid.symm
  · simp only [bind_ok, pure_ok] at ran
    obtain ⟨-, -, -, -, paid⟩ := ran
    exact paid.symm

theorem finalizeOutput_effect (priced : Priced s) (ran : s.finalizeOutput now n = .ok step)
    : Effect s msg (.finalizeOutput n) step := by
  obtain ⟨live, settled, s', outputs, challenges, steady, -, rfl⟩ := finalizeOutput_ok consistent ran
  refine ⟨.turned (.finalized live settled) (.set outputs) (.same challenges),
    priced.keep (priced.of_output live.1) steady, ?_, le_rfl⟩
  have released := owed_records (.set outputs) (.same challenges) steady.credits
  simp only [OutputProposal.heldBond, if_pos live, if_neg finalized_gone] at released
  simp only [Step.state, Step.paid, Step.needs, due]
  omega

variable {correctStateRoot : β}

theorem resolveChallenge_ok (ran : s.resolveChallenge msg n correctStateRoot = .ok step) :
    (s.challenges.read n).Open ∧ ∃ s' challenge, challenge.resolved = true ∧
      s'.challenges = s.challenges.set n challenge ∧ Steady s s' ∧
      if (s.outputs.read n).l2StateRoot = correctStateRoot then
        s'.outputs = s.outputs ∧ s'.lastSubmittedBlock = s.lastSubmittedBlock ∧
        step = .pay s' (s.outputs.read n).proposer (s.challenges.read n).bond
          (.credit (s.outputs.read n).proposer (s.challenges.read n).bond)
      else
        s'.outputs = s.outputs.set n default ∧
          s'.lastSubmittedBlock = (if n = s.lastSubmittedBlock then 0 else s.lastSubmittedBlock) ∧
          step = .pay s' (s.challenges.read n).challenger
            ((s.challenges.read n).bond + challengerReward (s.outputs.read n).bond)
            (.rewarded (s.challenges.read n).challenger
              ((s.challenges.read n).bond + challengerReward (s.outputs.read n).bond)
              (insuranceAmount (s.outputs.read n).bond)) := by
  simp only [resolveChallenge, bind_ok, revertIf_ok] at ran
  obtain ⟨-, -, -, created, -, unresolved, ran⟩ := ran
  have opened : (s.challenges.read n).Open := ⟨created, eq_false_of_not_eq_true unresolved⟩
  obtain ⟨challenger, wagered⟩ := (consistent n).contested opened
  obtain ⟨proposer, escrowed⟩ := (consistent n).proposed ((consistent n).disputed opened).1
  refine ⟨opened, ?_⟩
  by_cases correct : (s.outputs.read n).l2StateRoot = correctStateRoot
  · simp only [correct, ne_eq, not_true_eq_false, decide_false, false_eq_true, if_false, pure_ok] at ran
    simp only [if_pos correct]
    rw [payOrCredit_pays wagered proposer] at ran
    refine ⟨_, { s.challenges.read n with resolved := true, proposerFault := false }, rfl, ?_, ?_, ?_, ?_, ran.symm⟩
    · rfl
    · exact ⟨rfl, rfl, rfl, rfl⟩
    · rfl
    · rfl
  · simp only [correct, ne_eq, not_false_eq_true, decide_true, if_true, slash, bind_ok, checkedMul_ok,
      checkedSub_ok, checkedAdd_ok, pure_ok] at ran
    obtain ⟨_, ⟨-, rfl⟩, _, ⟨-, rfl⟩, _, ⟨-, rfl⟩, _, ⟨-, rfl⟩, _, ⟨-, rfl⟩, ran⟩ := ran
    simp only [if_neg correct]
    rw [payOrCredit_pays (Nat.add_pos_left wagered _) challenger] at ran
    refine ⟨_, { s.challenges.read n with resolved := true, proposerFault := true }, rfl, ?_, ?_, ?_, ?_, ran.symm⟩
    · rfl
    · exact ⟨rfl, rfl, rfl, rfl⟩
    · rfl
    · rfl

theorem resolveChallenge_effect (priced : Priced s)
    (ran : s.resolveChallenge msg n correctStateRoot = .ok step) : Effect s msg (.resolveChallenge n correctStateRoot) step := by
  obtain ⟨opened, s', challenge, closed, challenges, steady, paid⟩ := resolveChallenge_ok consistent ran
  have live := ((consistent n).disputed opened).1
  have kept := priced.keep (priced.of_output live.1) steady
  have turn : Turn msg n (s.outputs.read n) (s.challenges.read n) (.resolveChallenge n correctStateRoot) _ challenge :=
    .resolved opened closed
  split at paid
  · rename_i correct
    obtain ⟨outputs, -, rfl⟩ := paid
    rw [if_pos correct] at turn
    refine ⟨.turned turn (.same outputs) (.set challenges), kept, ?_, le_rfl⟩
    have released := owed_records (.same outputs) (.set challenges) steady.credits
    simp only [heldBond, if_pos opened, if_neg (not_open closed)] at released
    simp only [Step.state, Step.paid, Step.needs, due]
    omega
  · rename_i fault
    obtain ⟨outputs, -, rfl⟩ := paid
    rw [if_neg fault] at turn
    refine ⟨.turned turn (.set outputs) (.set challenges), kept, ?_, le_rfl⟩
    have released := owed_records (.set outputs) (.set challenges) steady.credits
    have shares := shares_le (s.outputs.read n).bond
    simp only [OutputProposal.heldBond, heldBond, if_pos live, if_neg default_gone, if_pos opened,
      if_neg (not_open closed)] at released
    simp only [Step.state, Step.paid, Step.needs, due]
    omega

theorem dispatch_effect (priced : Priced s) (sender : msg.sender ≠ 0) (ran : s.dispatch now msg call = .ok step)
    : Effect s msg call step := by
  cases call with
  | init _ _ _ _ _ _ =>
    simp only [dispatch, init, map_ok, bind_ok, revertIf_ok, pure_ok] at ran
    obtain ⟨_, ⟨-, -, -, -, -, proposer, -, challenger, -, -, rfl⟩, rfl⟩ := ran
    exact .tune rfl ⟨Nat.pos_of_ne_zero proposer, Nat.pos_of_ne_zero challenger⟩ rfl rfl rfl
  | submitOutputRoot n outputRoot l2StateRoot =>
    obtain ⟨s', done, rfl⟩ := map_ok.mp ran
    exact submitOutputRoot_effect priced done
  | challengeOutputRoot n =>
    obtain ⟨s', done, rfl⟩ := map_ok.mp ran
    exact challengeOutputRoot_effect consistent priced done
  | resolveChallenge n correctStateRoot => exact resolveChallenge_effect consistent priced ran
  | finalizeOutput n => exact finalizeOutput_effect consistent priced ran
  | withdrawPayments => exact withdrawPayments_effect priced ran
  | setChallengeResolver _ | addProposer _ | transferOwnership _ =>
    simp only [dispatch, setChallengeResolver, addProposer, transferOwnership, map_ok, bind_ok, pure_ok] at ran
    obtain ⟨_, ⟨_, owner, -, -, rfl⟩, rfl⟩ := ran
    exact owner_effect rfl priced sender owner ⟨rfl, rfl, rfl, rfl⟩ rfl rfl
  | removeProposer proposer =>
    simp only [dispatch, removeProposer, map_ok, bind_ok, pure_ok] at ran
    obtain ⟨_, ⟨_, owner, rfl⟩, rfl⟩ := ran
    exact owner_effect rfl priced sender owner ⟨rfl, rfl, rfl, rfl⟩ rfl rfl
  | receive =>
    cases ran
    exact .tune rfl priced rfl rfl rfl

end Functions

section Answers

def Pending.credits (pending : Pending) (ok : Bool) (account : Address) : Nat :=
  match pending with
  | .rewarded payee amount _ | .credit payee amount | .finalized _ payee amount =>
    if ok = false ∧ account = payee then amount else 0
  | .transfer => 0

/-- The end of a payment: the payee has it, or has it credited, and of a slash the insurance portion is
    next. -/
def Delivers (s : Storage β) (pending : Pending) (ok : Bool) (step : Step (Storage β) Pending) : Prop :=
  (∀ account, step.state.pendingWithdrawals.read account =
    s.pendingWithdrawals.read account + pending.credits ok account) ∧
  match pending with
  | .rewarded _ _ insuranceAmount => step = step.state.payInsurance insuranceAmount
  | _ => step = .done step.state

/-- A released bond is paid whole: to the proposer if the output is final, the challenger's to the proposer if the
    output was right, and else the challenger's own with the reward to the challenger. -/
def Disposes (s : Storage β) : Call β → Step (Storage β) Pending → Prop
  | .finalizeOutput n, step => ∃ s', step = .pay s' (s.outputs.read n).proposer (s.outputs.read n).bond
      (.finalized n (s.outputs.read n).proposer (s.outputs.read n).bond)
  | .resolveChallenge n correctStateRoot, step => ∃ s',
    if (s.outputs.read n).l2StateRoot = correctStateRoot then
      step = .pay s' (s.outputs.read n).proposer (s.challenges.read n).bond
        (.credit (s.outputs.read n).proposer (s.challenges.read n).bond)
    else
      step = .pay s' (s.challenges.read n).challenger
        ((s.challenges.read n).bond + challengerReward (s.outputs.read n).bond)
        (.rewarded (s.challenges.read n).challenger
          ((s.challenges.read n).bond + challengerReward (s.outputs.read n).bond)
          (insuranceAmount (s.outputs.read n).bond))
  | _, _ => True

theorem dispatch_disposes (consistent : Consistent s) (ran : s.dispatch now msg call = .ok step) :
    Disposes s call step := by
  cases call with
  | finalizeOutput n =>
    obtain ⟨-, -, s', -, -, -, -, paid⟩ := finalizeOutput_ok consistent ran
    exact ⟨s', paid⟩
  | resolveChallenge n correctStateRoot =>
    obtain ⟨-, s', -, -, -, -, paid⟩ := resolveChallenge_ok consistent ran
    refine ⟨s', ?_⟩
    split at paid
    · rename_i correct
      rw [if_pos correct]
      exact paid.2.2
    · rename_i fault
      rw [if_neg fault]
      exact paid.2.2
  | _ => trivial

omit [DecidableEq β] [Inhabited β]

theorem payInsurance_spends (s : Storage β) (insuranceAmount : Nat) :
    (s.payInsurance insuranceAmount).state = s ∧
      (s.payInsurance insuranceAmount).paid + (s.payInsurance insuranceAmount).needs due ≤ insuranceAmount ∧
      (s.payInsurance insuranceAmount).needs reserve ≤ (s.payInsurance insuranceAmount).paid := by
  unfold payInsurance
  split
  · rename_i payable
    rw [payOrCredit_pays payable.2 payable.1]
    exact ⟨rfl, Nat.le_refl _, Nat.le_refl _⟩
  · exact ⟨rfl, Nat.zero_le _, Nat.le_refl _⟩

theorem paidOrCredited_ok {payee : Address} {amount : Nat} {ok : Bool} (ran : s.paidOrCredited payee amount ok = .ok s') :
    ∃ credits, s' = { s with pendingWithdrawals := credits } ∧
      (∀ account, credits.read account =
        s.pendingWithdrawals.read account + if ok = false ∧ account = payee then amount else 0) ∧
      owed s' = owed s + if ok then 0 else amount := by
  cases ok with
  | true =>
    cases ran
    exact ⟨s.pendingWithdrawals, rfl, by simp, by simp⟩
  | false =>
    simp only [paidOrCredited, false_eq_true, if_false, bind_ok, checkedAdd_ok, pure_ok] at ran
    obtain ⟨_, ⟨-, rfl⟩, rfl⟩ := ran
    refine ⟨_, rfl, ?_, ?_⟩
    · intro account
      by_cases here : account = payee
      · simp [here]
      · simp [here]
    · have exchanged : owed { s with
          pendingWithdrawals := s.pendingWithdrawals.set payee (s.pendingWithdrawals.read payee + amount) } +
            s.pendingWithdrawals.read payee = owed s + (s.pendingWithdrawals.read payee + amount) :=
        owed_credits rfl rfl rfl
      simp only [false_eq_true, if_false]
      omega

structure SameRecords (s s' : Storage β) : Prop where
  outputs : s'.outputs = s.outputs
  challenges : s'.challenges = s.challenges
  initialized : s'.initialized = s.initialized
  proposerBond : s'.proposerBond = s.proposerBond
  challengerBond : s'.challengerBond = s.challengerBond
  owner : s'.owner = s.owner
  allowedProposers : s'.allowedProposers = s.allowedProposers

theorem resume_ok {pending : Pending} {ok : Bool} (ran : s.resume pending ok = .ok step) :
    SameRecords s step.state ∧ step.state.lastSubmittedBlock = s.lastSubmittedBlock ∧ Delivers s pending ok step ∧
      owed step.state = owed s + (if ok then 0 else reserve pending) ∧
      step.paid + step.needs due ≤ due pending ∧ step.needs reserve ≤ step.paid := by
  cases pending
  case transfer =>
    cases ok with
    | true =>
      cases ran
      exact ⟨⟨rfl, rfl, rfl, rfl, rfl, rfl, rfl⟩, rfl, ⟨fun _ => rfl, rfl⟩, rfl, le_rfl, le_rfl⟩
    | false => cases ran
  -- the others first pay or credit their payee
  all_goals
    simp only [resume, bind_ok, pure_ok] at ran
    obtain ⟨s', credited, rfl⟩ := ran
    obtain ⟨credits, rfl, read, owing⟩ := paidOrCredited_ok credited
  case rewarded payee amount insuranceAmount =>
    obtain ⟨state, spent, reserved⟩ := payInsurance_spends { s with pendingWithdrawals := credits } insuranceAmount
    rw [state]
    refine ⟨⟨rfl, rfl, rfl, rfl, rfl, rfl, rfl⟩, rfl, ⟨?_, ?_⟩, owing, spent, reserved⟩
    · rw [state]
      exact read
    · rw [state]
  case credit => exact ⟨⟨rfl, rfl, rfl, rfl, rfl, rfl, rfl⟩, rfl, ⟨read, rfl⟩, owing, le_rfl, le_rfl⟩
  case finalized =>
    unfold advance
    split <;> exact ⟨⟨rfl, rfl, rfl, rfl, rfl, rfl, rfl⟩, rfl, ⟨read, rfl⟩, owing, le_rfl, le_rfl⟩

end Answers

theorem Sound.same (sound : Sound s now history) (same : SameRecords s s') : Sound s' now history := by
  obtain ⟨consistent, priced, ⟨proposer, challenger⟩⟩ := sound
  refine ⟨?_, ?_, ⟨?_, ?_⟩⟩
  · rwa [Consistent, same.outputs, same.challenges]
  · rwa [Priced, same.initialized, same.proposerBond, same.challengerBond, same.owner, same.allowedProposers, same.outputs]
  · rwa [same.outputs]
  · rwa [same.challenges]

theorem rollup_solvent :
    Solvent (contract : Contract (Storage β) (Call β) Pending BlockTime Revert) setting Sound owed reserve due where
  call := by
    intro w msg call step below covered callable paid ran
    obtain ⟨⟨consistent, priced, settled⟩, funds, -⟩ := covered
    have sender : msg.sender ≠ 0 := callable.2
    obtain ⟨change, kept, within, reserved⟩ := dispatch_effect consistent priced sender ran
    exact ⟨⟨change.consistent consistent sender, kept, change.settled consistent settled⟩, by omega, reserved⟩
  resume := by
    intro w pending ok step below covered ran
    obtain ⟨sound, funds, -⟩ := covered
    obtain ⟨same, -, -, owing, spent, reserved⟩ := resume_ok ran
    refine ⟨sound.same same, ?_, reserved⟩
    cases ok with
    | true =>
      simp only [if_true] at funds owing
      omega
    | false =>
      have set : owed w.state + (reserve pending + due pending) + below ≤ w.balance := funds
      simp only [false_eq_true, if_false] at owing
      omega
  passes := fun sound _ => sound

/-- The contract can pay the bonds it holds and the credits; each bond is held or was released once, in order, and
    a release pays, credits or slashes all of it. -/
theorem rollup_safe {balance : Nat} {self : Address} {start : BlockTime}
    {m : Machine (World (Storage β) (Call β) BlockTime) Pending}
    (reached : Reachable contract setting (.fresh deployed balance self start) m) :
    m.state.state.outputs.total OutputProposal.heldBond + m.state.state.challenges.total OutputChallenge.heldBond +
        m.state.state.pendingWithdrawals.total id ≤ m.state.balance ∧
      (∀ n, m.state.history.filterMap (proposerPosts n) =
        (m.state.state.outputs.read n).held ++ m.state.history.filterMap (proposerReleases n)) ∧
      (∀ n, m.state.history.filterMap (challengerPosts n) =
        (m.state.state.challenges.read n).held ++ m.state.history.filterMap (challengerReleases n)) ∧
      (∀ msg call step, m.state.state.dispatch m.state.env msg call = .ok step → Disposes m.state.state call step) ∧
      ∀ pending ok step, m.state.state.resume pending ok = .ok step → Delivers m.state.state pending ok step := by
  obtain ⟨⟨consistent, -, settled⟩, funds⟩ :=
    rollup_solvent.reaches (deployed_sound start) (Nat.zero_le _) reached
  refine ⟨Nat.le_trans (Nat.le_add_right _ _) funds, settled.proposer, settled.challenger, ?_, ?_⟩
  · intro msg call step ran
    exact dispatch_disposes consistent ran
  · intro pending ok step ran
    exact (resume_ok ran).2.2.1

def firstBlock : BlockTime := ⟨1, by decide⟩

/-- A slashed block is submitted again while the challenger is paid; the second output is challenged for nothing
    and becomes final. -/
def resubmission : List (Event (Msg × Call Nat) (Outside BlockTime)) :=
  [.call (⟨1, 0⟩, .init 10 1000 100 5 2 1),
    .call (⟨2, 1000⟩, .submitOutputRoot 7 70 71),
    .call (⟨3, 100⟩, .challengeOutputRoot 7),
    .call (⟨1, 0⟩, .resolveChallenge 7 72),
    .call (⟨2, 1000⟩, .submitOutputRoot 7 70 72),
    .answer true,
    .answer false,
    .call (⟨3, 100⟩, .challengeOutputRoot 7),
    .call (⟨1, 0⟩, .resolveChallenge 7 72),
    .answer true,
    .call (⟨2, 0⟩, .finalizeOutput 7)]

def resubmitted : Machine (World (Storage Nat) (Call Nat) BlockTime) Pending :=
  resubmission.foldl (Machine.step contract.component) ⟨.fresh deployed 0 100 firstBlock, []⟩

theorem resubmitted_safe :
    (resubmitted.state.history.filterMap (proposerReleases 7) = [⟨2, 1000⟩, ⟨2, 1000⟩] ∧
        resubmitted.state.state.pendingWithdrawals.read 5 = 200) ∧
      resubmitted.state.state.outputs.total OutputProposal.heldBond +
        resubmitted.state.state.challenges.total OutputChallenge.heldBond +
        resubmitted.state.state.pendingWithdrawals.total id ≤ resubmitted.state.balance ∧
      (∀ n, resubmitted.state.history.filterMap (proposerPosts n) =
        (resubmitted.state.state.outputs.read n).held ++ resubmitted.state.history.filterMap (proposerReleases n)) := by
  have safe := rollup_safe (Reaches.run .start (by decide +kernel : Admitted
    (Machine.Admits setting.callable setting.possible)
    (Machine.step (contract : Contract (Storage Nat) (Call Nat) Pending BlockTime Revert).component)
    ⟨.fresh deployed 0 100 firstBlock, []⟩ resubmission))
  exact ⟨by decide +kernel, safe.1, safe.2.1⟩

end Palimesh.Contracts.RollupStateManager
