import Palimesh.Bft.Coordinator
import Palimesh.Collections.BoundedSet
import Palimesh.Governance.Validators

namespace Palimesh.Governance

open Bft Collections List InsertionMap ValidatorInfo

structure BftSlashingConfig where
  slashPercent : Int
  minStakeThreshold : Option Int
  autoRemove : Bool
  percentage : 0 ≤ slashPercent ∧ slashPercent ≤ 100

structure SlashEvent where
  validatorId : String
  height : Int
  phase : MessageType
  slashedAmount : Int
  remainingStake : Int
  removed : Bool
  evidence : EquivocationEvidence
deriving DecidableEq

def maxConsumedEvidence : Nat := 10000

structure BftSlashingHandler where
  config : BftSlashingConfig
  governance : ValidatorGovernance
  slashHistory : List SlashEvent
  consumedEvidence : BoundedSet String maxConsumedEvidence

def sortedText (lo hi : Hex) : String := if hi < lo then hi ++ "|" ++ lo else lo ++ "|" ++ hi

def evidenceKey (evidence : EquivocationEvidence) : String :=
  toLowerCase evidence.validatorId ++ "|" ++ toString evidence.height ++ "|" ++ evidence.phase.text ++ "|" ++
    sortedText (toLowerCase evidence.blockHash1) (toLowerCase evidence.blockHash2)

namespace BftSlashingHandler

variable (config : BftSlashingConfig) (governance : ValidatorGovernance)

def create (config : BftSlashingConfig) : BftSlashingHandler :=
  ⟨config, governance, [], .empty⟩

def slashAmount (v : ValidatorInfo) : Int := (v.stake * config.slashPercent).tdiv 100

def shouldRemove (remainingStake : Int) : Bool :=
  config.autoRemove && decide (remainingStake < config.minStakeThreshold.getD governance.minStake)

def punish (validatorId : String) (amount : Int) (remove : Bool) : Except String ValidatorGovernance := do
  let slashed := governance.applySlash validatorId amount
  let funded ← if 0 < amount then slashed.depositTreasury amount else pure slashed
  return if remove then funded.deactivateValidator validatorId else funded

def pushEvent (slashHistory : List SlashEvent) (event : SlashEvent) : List SlashEvent :=
  (if 10000 ≤ slashHistory.length then slashHistory.drop (slashHistory.length - 9999) else slashHistory) ++ [event]

def handleEquivocation (h : BftSlashingHandler) (evidence : EquivocationEvidence) :
    Except String (Option SlashEvent × BftSlashingHandler) :=
  match h.governance.getValidator evidence.validatorId with
  | none => .ok (none, h)
  | some v =>
    if !v.active then .ok (none, h)
    else if h.consumedEvidence.has (evidenceKey evidence) then .ok (none, h)
    else do
      let amount := slashAmount h.config v
      let remainingStake := v.stake - amount
      let removed := shouldRemove h.config h.governance remainingStake
      let governance ← punish h.governance evidence.validatorId amount removed
      let event : SlashEvent :=
        ⟨evidence.validatorId, evidence.height, evidence.phase, amount, remainingStake, removed, evidence⟩
      return (some event,
        { h with
          governance
          slashHistory := pushEvent h.slashHistory event
          consumedEvidence := h.consumedEvidence.add (evidenceKey evidence) })

def handleAll (h : BftSlashingHandler) (events : List SlashEvent) :
    List EquivocationEvidence → Except String (List SlashEvent × BftSlashingHandler)
  | [] => .ok (events, h)
  | evidence :: rest => do
    let (event, h) ← h.handleEquivocation evidence
    h.handleAll (events ++ event.toList) rest

end BftSlashingHandler

/-- The double vote that an evidence shows: how its ids and hashes are cased and ordered does not matter. -/
structure Offence where
  validator : String
  height : Int
  phase : MessageType
  hashes : Sym2 String
deriving DecidableEq

def offence (evidence : EquivocationEvidence) : Offence :=
  ⟨toLowerCase evidence.validatorId, evidence.height, evidence.phase,
    s(toLowerCase evidence.blockHash1, toLowerCase evidence.blockHash2)⟩

def Solvent (g : ValidatorGovernance) (id : String) : Prop :=
  ∀ stake, (g.getValidator id).map ValidatorInfo.stake = some stake → 0 ≤ stake

theorem sortedText_comm (lo hi : String) : sortedText lo hi = sortedText hi lo := by
  unfold sortedText
  rcases lt_trichotomy lo hi with less | equal | less
  · rw [if_neg (lt_asymm less), if_pos less]
  · rw [equal]
  · rw [if_pos less, if_neg (lt_asymm less)]

def keyOfOffence (o : Offence) : String :=
  o.validator ++ "|" ++ toString o.height ++ "|" ++ o.phase.text ++ "|" ++
    Sym2.lift ⟨sortedText, sortedText_comm⟩ o.hashes

theorem evidenceKey_eq (evidence : EquivocationEvidence) : evidenceKey evidence = keyOfOffence (offence evidence) := by
  unfold keyOfOffence offence
  rw [Sym2.lift_mk]
  unfold evidenceKey
  with_reducible rfl

namespace BftSlashingHandler

variable {g : ValidatorGovernance} {v : ValidatorInfo} {validatorId : String} {amount : Int}

variable (config : BftSlashingConfig)

theorem slashAmount_le (positive : 0 < slashAmount config v) : slashAmount config v ≤ v.stake := by
  obtain ⟨low, high⟩ := config.percentage
  unfold slashAmount at *
  have product : 0 < v.stake * config.slashPercent := by
    by_contra negative
    have opposite := Int.tdiv_nonneg (by omega : 0 ≤ -(v.stake * config.slashPercent)) (by omega : (0 : Int) ≤ 100)
    rw [Int.neg_tdiv] at opposite
    omega
  rw [Int.tdiv_eq_ediv_of_nonneg product.le] at *
  have staked : 0 < v.stake := by
    by_contra negative
    have := Int.mul_nonpos_of_nonpos_of_nonneg (by omega : v.stake ≤ 0) low
    omega
  have whole : v.stake * config.slashPercent ≤ v.stake * 100 := Int.mul_le_mul_of_nonneg_left high staked.le
  omega

/-- What a call keeps: the sum of stakes and treasury, and every validator's solvency. -/
structure Conserves (g g' : ValidatorGovernance) : Prop where
  wealth : g'.wealth = g.wealth
  solvent : ∀ id, Solvent g id → Solvent g' id

theorem Conserves.refl (g : ValidatorGovernance) : Conserves g g := ⟨rfl, fun _ => id⟩

theorem Conserves.trans {g g' g'' : ValidatorGovernance} (first : Conserves g g') (second : Conserves g' g'') :
    Conserves g g'' :=
  ⟨second.wealth.trans first.wealth, fun id solvent => second.solvent id (first.solvent id solvent)⟩

theorem Conserves.deactivateValidator (g : ValidatorGovernance) (validatorId : String) :
    Conserves g (g.deactivateValidator validatorId) := by
  have same := ValidatorGovernance.deactivateValidator_sameStakes g validatorId
  constructor
  · exact same.wealth
  · intro id solvent stake found
    rw [same.stake] at found
    exact solvent stake found

theorem Conserves.slash (found : g.getValidator validatorId = some v) (active : v.active = true)
    (positive : 0 < amount) (covered : amount ≤ v.stake) :
    ∃ g', (g.applySlash validatorId amount).depositTreasury amount = .ok g' ∧ Conserves g g' ∧
      ∀ id, (g'.getValidator id).map stake =
        if id = validatorId then some (v.stake - amount) else (g.getValidator id).map stake := by
  have slashed := ValidatorGovernance.applySlash_stake found active positive covered
  generalize g.applySlash validatorId amount = taken at slashed
  apply Exists.intro { taken with treasuryBalance := taken.treasuryBalance + amount }
  have conserves : Conserves g { taken with treasuryBalance := taken.treasuryBalance + amount } := by
    constructor
    · unfold ValidatorGovernance.wealth at *
      dsimp only
      omega
    · intro id solvent stake holds
      have after := (slashed.2 id).symm.trans holds
      split at after
      · cases after
        omega
      · exact solvent stake after
  exact ⟨if_neg (by omega), conserves, slashed.2⟩

def Takes (v : ValidatorInfo) (g g' : ValidatorGovernance) : Prop :=
  ∀ id, (g'.getValidator id).map ValidatorInfo.stake =
    if id = v.id ∧ 0 < slashAmount config v then some (v.stake - slashAmount config v)
    else (g.getValidator id).map ValidatorInfo.stake

theorem punish_conserves (found : g.getValidator validatorId = some v) (active : v.active = true) (remove : Bool) :
    ∃ g', punish g validatorId (slashAmount config v) remove = .ok g' ∧ Conserves g g' ∧ Takes config v g g' := by
  have own : v.id = validatorId := g.keyed validatorId v found
  have removed : ∀ funded, Conserves g funded → Takes config v g funded →
      Conserves g (if remove then funded.deactivateValidator validatorId else funded) ∧
        Takes config v g (if remove then funded.deactivateValidator validatorId else funded) := by
    intro funded earlier taken
    split
    · have same := ValidatorGovernance.deactivateValidator_sameStakes funded validatorId
      exact ⟨earlier.trans (Conserves.deactivateValidator funded validatorId), fun id => (same.stake id).trans (taken id)⟩
    · exact ⟨earlier, taken⟩
  unfold punish
  by_cases positive : 0 < slashAmount config v
  · obtain ⟨funded, deposited, kept, taken⟩ := Conserves.slash found active positive (slashAmount_le config positive)
    rw [if_pos positive, deposited]
    exact ⟨_, rfl, removed funded kept fun id => by simp only [taken id, own, positive, and_true]⟩
  · -- Nothing to take: neither the stakes nor the treasury move.
    have unchanged : g.applySlash validatorId (slashAmount config v) = g := if_pos (by omega)
    rw [if_neg positive, unchanged]
    exact ⟨_, rfl, removed g (Conserves.refl g) fun id => (if_neg fun both => positive both.2).symm⟩

variable {h : BftSlashingHandler}

theorem handleEquivocation_slashes {evidence : EquivocationEvidence}
    (found : h.governance.getValidator evidence.validatorId = some v) (active : v.active = true)
    (fresh : h.consumedEvidence.has (evidenceKey evidence) = false) :
    ∃ event h', h.handleEquivocation evidence = .ok (some event, h') ∧ event.evidence = evidence ∧
      h'.consumedEvidence = h.consumedEvidence.add (evidenceKey evidence) ∧ Conserves h.governance h'.governance ∧
      Takes h.config v h.governance h'.governance := by
  obtain ⟨governance, punished, kept, taken⟩ := punish_conserves h.config found active
    (shouldRemove h.config h.governance (v.stake - slashAmount h.config v))
  unfold handleEquivocation
  simp only [found, active, fresh, Bool.not_true, Bool.false_eq_true, if_false, punished]
  exact ⟨_, _, rfl, rfl, rfl, kept, taken⟩

theorem handleEquivocation_cases (h : BftSlashingHandler) (evidence : EquivocationEvidence) :
    h.handleEquivocation evidence = .ok (none, h) ∨
    ∃ event h', h.handleEquivocation evidence = .ok (some event, h') ∧ event.evidence = evidence ∧
      evidenceKey evidence ∉ h.consumedEvidence.items ∧
      h'.consumedEvidence = h.consumedEvidence.add (evidenceKey evidence) ∧ Conserves h.governance h'.governance := by
  cases found : h.governance.getValidator evidence.validatorId with
  | none =>
    left
    rw [handleEquivocation, found]
  | some v =>
    by_cases active : v.active = true
    · by_cases consumed : h.consumedEvidence.has (evidenceKey evidence) = true
      · left
        simp [handleEquivocation, found, active, consumed]
      · right
        obtain ⟨event, h', handled, shows, added, kept, _⟩ :=
          handleEquivocation_slashes found active (by simpa using consumed)
        exact ⟨event, h', handled, shows, fun member => consumed ((BoundedSet.has_iff _).mpr member), added, kept⟩
    · left
      simp [handleEquivocation, found, active]

structure Accounts (g : ValidatorGovernance) (seen : List EquivocationEvidence) (events : List SlashEvent)
    (h : BftSlashingHandler) : Prop where
  conserves : Conserves g h.governance
  consumed : h.consumedEvidence.items = events.map fun event => evidenceKey event.evidence
  reported : ∀ event ∈ events, event.evidence ∈ seen

variable {events : List SlashEvent}

theorem Accounts.room {seen : List EquivocationEvidence} (accounts : Accounts g seen events h)
    {all : List EquivocationEvidence} (part : seen ⊆ all)
    (few : (all.map offence).toFinset.card < maxConsumedEvidence) :
    h.consumedEvidence.items.length < maxConsumedEvidence := by
  -- Distinct keys show distinct offences, so the consumed keys are as few as the offences.
  have keys : h.consumedEvidence.items.toFinset ⊆ (all.map offence).toFinset.image keyOfOffence := by
    intro key member
    rw [mem_toFinset, accounts.consumed] at member
    obtain ⟨event, happened, rfl⟩ := List.mem_map.mp member
    have shown : offence event.evidence ∈ all.map offence :=
      List.mem_map.mpr ⟨_, part (accounts.reported event happened), rfl⟩
    exact Finset.mem_image.mpr ⟨_, List.mem_toFinset.mpr shown, (evidenceKey_eq event.evidence).symm⟩
  calc h.consumedEvidence.items.length
      = h.consumedEvidence.items.toFinset.card := (toFinset_card_of_nodup h.consumedEvidence.nodup).symm
    _ ≤ ((all.map offence).toFinset.image keyOfOffence).card := Finset.card_le_card keys
    _ ≤ (all.map offence).toFinset.card := Finset.card_image_le
    _ < maxConsumedEvidence := few

theorem Accounts.step {seen : List EquivocationEvidence} (accounts : Accounts g seen events h)
    (room : h.consumedEvidence.items.length < maxConsumedEvidence) (evidence : EquivocationEvidence) :
    ∃ event h', h.handleEquivocation evidence = .ok (event, h') ∧
      Accounts g (seen ++ [evidence]) (events ++ event.toList) h' := by
  have earlier : ∀ event ∈ events, event.evidence ∈ seen ++ [evidence] := fun event happened =>
    mem_append_left _ (accounts.reported event happened)
  rcases handleEquivocation_cases h evidence with unchanged | ⟨event, h', slashed, shows, fresh, added, kept⟩
  · apply Exists.intro none
    apply Exists.intro h
    rw [Option.toList_none, append_nil]
    exact ⟨unchanged, accounts.conserves, accounts.consumed, earlier⟩
  · apply Exists.intro (some event)
    apply Exists.intro h'
    constructor
    · exact slashed
    · constructor
      · exact accounts.conserves.trans kept
      · rw [added, BoundedSet.items_add _ fresh room, accounts.consumed, Option.toList_some, map_append,
          ← shows]
        rfl
      · intro other happened
        rcases List.mem_append.mp happened with before | now
        · exact earlier other before
        · rw [Option.toList_some, mem_singleton] at now
          rw [now, shows]
          exact mem_append_right _ mem_cons_self

theorem handleAll_accounts {rest seen : List EquivocationEvidence} (accounts : Accounts g seen events h)
    (few : ((seen ++ rest).map offence).toFinset.card < maxConsumedEvidence) :
    ∃ events' h', h.handleAll events rest = .ok (events', h') ∧ Accounts g (seen ++ rest) events' h' := by
  induction rest generalizing seen events h with
  | nil =>
    rw [append_nil]
    exact ⟨events, h, rfl, accounts⟩
  | cons evidence rest ih =>
    have room := accounts.room (subset_append_left seen (evidence :: rest)) few
    obtain ⟨event, h', handled, after⟩ := accounts.step room evidence
    rw [append_cons] at few ⊢
    obtain ⟨events', h'', finished, result⟩ := ih after few
    have composed : h.handleAll events (evidence :: rest) = h'.handleAll (events ++ event.toList) rest := by
      show (h.handleEquivocation evidence >>= fun r => r.2.handleAll (events ++ r.1.toList) rest) = _
      rw [handled]
      rfl
    exact ⟨events', h'', composed.trans finished, result⟩

end BftSlashingHandler

open BftSlashingHandler in
/-- Slashing moves value from stakes to the treasury, overdraws no stake, and punishes an offence once. -/
theorem slashing_conserves_and_never_repeats (config : BftSlashingConfig) (g : ValidatorGovernance)
    (evidences : List EquivocationEvidence) (few : (evidences.map offence).toFinset.card < 10000) :
    ∃ events h, (create g config).handleAll [] evidences = .ok (events, h) ∧
      h.governance.wealth = g.wealth ∧ (∀ id, Solvent g id → Solvent h.governance id) ∧
      (events.map fun event => offence event.evidence).Nodup := by
  have fresh : Accounts g [] [] (create g config) := ⟨Conserves.refl g, rfl, by simp⟩
  have enough : (([] ++ evidences).map offence).toFinset.card < maxConsumedEvidence := by
    rw [nil_append, maxConsumedEvidence]
    exact few
  obtain ⟨events, h, handled, accounts⟩ := handleAll_accounts fresh enough
  apply Exists.intro events
  apply Exists.intro h
  have keys : (events.map fun event => evidenceKey event.evidence).Nodup := by
    rw [← accounts.consumed]
    exact h.consumedEvidence.nodup
  have offences : (events.map fun event => offence event.evidence).Nodup := by
    apply List.Nodup.of_map keyOfOffence
    simp only [map_map, Function.comp_def, ← evidenceKey_eq]
    exact keys
  exact ⟨handled, accounts.conserves.wealth, accounts.conserves.solvent, offences⟩

section Sample

def sampleValidator (id : String) (stake : Int) : ValidatorInfo := ⟨id, "0x" ++ id, stake, 0, true, 5000⟩

def sampleGovernance : ValidatorGovernance where
  minStake := 100
  validators := (InsertionMap.empty.set "a" (sampleValidator "a" 1000)).set "b" (sampleValidator "b" 105)
  treasuryBalance := 7
  keyed := by
    intro id v found
    rw [get?_set, get?_set] at found
    split at found
    · cases found
      symm
      assumption
    · split at found
      · cases found
        symm
        assumption
      · cases found

def tenPercent : BftSlashingConfig := ⟨10, none, true, by decide⟩

def sampleEvidence : List EquivocationEvidence :=
  [⟨"a", 3, .prepare, "0xaa", "0xbb", none, none⟩, ⟨"a", 3, .prepare, "0xBB", "0xAA", none, none⟩,
   ⟨"a", 3, .prepare, "0xaa", "0xbb", some "s", some "t"⟩, ⟨"b", 3, .commit, "0xaa", "0xbb", none, none⟩]

theorem repeated_evidence_slashed_once :
    (sampleEvidence.map offence).toFinset.card < 10000 ∧
    ∃ events h, (BftSlashingHandler.create sampleGovernance tenPercent).handleAll [] sampleEvidence = .ok (events, h) ∧
      h.governance.wealth = sampleGovernance.wealth ∧
      (∀ id, Solvent sampleGovernance id → Solvent h.governance id) ∧
      (events.map fun event => offence event.evidence).Nodup := by
  have few : (sampleEvidence.map offence).toFinset.card < 10000 := by
    have length : (sampleEvidence.map offence).length = 4 := rfl
    have bound := toFinset_card_le (sampleEvidence.map offence)
    omega
  exact ⟨few, slashing_conserves_and_never_repeats tenPercent sampleGovernance sampleEvidence few⟩

def oneVote (validatorId : String) : EquivocationDetector := (({} : EquivocationDetector).recordVote validatorId 3 .prepare "0xaa" "").1

def doubleVote (validatorId : String) : EquivocationEvidence := ⟨validatorId, 3, .prepare, "0xaa", "0xbb", none, none⟩

def casedGovernance : ValidatorGovernance where
  minStake := 100
  validators := InsertionMap.empty.set "0xAb" (sampleValidator "0xAb" 1000)
  treasuryBalance := 0
  keyed := by
    intro id v found
    rw [get?_set] at found
    split at found
    · cases found
      symm
      assumption
    · cases found

end Sample

end Palimesh.Governance
