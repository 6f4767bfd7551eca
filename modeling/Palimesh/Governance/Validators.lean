import Palimesh.Chain.Block
import Palimesh.Collections.InsertionMap

namespace Palimesh.Governance

open Collections InsertionMap

structure ValidatorInfo where
  id : String
  address : String
  stake : Int
  joinedAtEpoch : Int
  active : Bool
  votingPower : Int
deriving DecidableEq

/-- The part of `ValidatorGovernance` that slashing reads and writes. Every validator is kept under its id. -/
structure ValidatorGovernance where
  minStake : Int
  validators : InsertionMap String ValidatorInfo
  treasuryBalance : Int
  keyed : ∀ id v, validators.get? id = some v → v.id = id

namespace ValidatorGovernance

section

variable (g : ValidatorGovernance)

def getValidator (id : String) : Option ValidatorInfo := g.validators.get? id

def setValidator (v : ValidatorInfo) : ValidatorGovernance :=
  { g with
    validators := g.validators.set v.id v
    keyed := by
      intro id other found
      rw [get?_set] at found
      split at found
      · rename_i same
        cases found
        exact same.symm
      · exact g.keyed id other found }

def getActiveValidators : List ValidatorInfo :=
  (g.validators.entries.map Prod.snd).filter ValidatorInfo.active

def powerOf (totalStake : Int) (v : ValidatorInfo) : Int :=
  if 0 < totalStake then (v.stake * 10000).tdiv totalStake else 0

def recalcVotingPower : ValidatorGovernance :=
  let active := g.getActiveValidators
  let totalStake := (active.map ValidatorInfo.stake).sum
  let powered := active.foldl (fun g v => g.setValidator { v with votingPower := powerOf totalStake v }) g
  (powered.validators.entries.map Prod.snd).foldl
    (fun g v => if !v.active && v.votingPower != 0 then g.setValidator { v with votingPower := 0 } else g) powered

def depositTreasury (amount : Int) : Except String ValidatorGovernance :=
  if amount ≤ 0 then .error "deposit amount must be positive"
  else .ok { g with treasuryBalance := g.treasuryBalance + amount }

def applySlash (validatorId : String) (amount : Int) : ValidatorGovernance :=
  if amount ≤ 0 then g
  else match g.getValidator validatorId with
    | none => g
    | some v =>
      if !v.active then g
      else
        let newStake := if amount < v.stake then v.stake - amount else 0
        -- A validator without stake would break the quorum, so it is deactivated at once.
        (g.setValidator { v with stake := newStake, active := !(newStake == 0) }).recalcVotingPower

def deactivateValidator (validatorId : String) : ValidatorGovernance :=
  match g.getValidator validatorId with
  | none => g
  | some v => if !v.active then g else (g.setValidator { v with active := false }).recalcVotingPower

def wealth : Int :=
  (g.validators.entries.map fun entry => entry.2.stake).sum + g.treasuryBalance

end

variable {g : ValidatorGovernance} {id : String} {v old : ValidatorInfo}

theorem wealth_setValidator (found : g.getValidator v.id = some old) :
    (g.setValidator v).wealth = g.wealth - old.stake + v.stake := by
  have sums := sum_set g.validators ValidatorInfo.stake v found
  change ((g.validators.set v.id v).entries.map fun entry => entry.2.stake).sum + g.treasuryBalance = _
  rw [sums, wealth]
  omega

theorem getValidator_setValidator (g : ValidatorGovernance) (v : ValidatorInfo) (id : String) :
    (g.setValidator v).getValidator id = if id = v.id then some v else g.getValidator id :=
  get?_set g.validators v.id id v

structure SameStakes (g g' : ValidatorGovernance) : Prop where
  stake : ∀ id, (g'.getValidator id).map ValidatorInfo.stake = (g.getValidator id).map ValidatorInfo.stake
  wealth : g'.wealth = g.wealth

theorem SameStakes.refl (g : ValidatorGovernance) : SameStakes g g := ⟨fun _ => rfl, rfl⟩

theorem SameStakes.trans {g g' g'' : ValidatorGovernance} (first : SameStakes g g') (second : SameStakes g' g'') :
    SameStakes g g'' :=
  ⟨fun id => (second.stake id).trans (first.stake id), second.wealth.trans first.wealth⟩

theorem SameStakes.setValidator (known : (g.getValidator v.id).map ValidatorInfo.stake = some v.stake) :
    SameStakes g (g.setValidator v) := by
  obtain ⟨old, found, same⟩ := Option.map_eq_some_iff.mp known
  constructor
  · intro id
    rw [getValidator_setValidator]
    by_cases here : id = v.id
    · rw [if_pos here, here, known]
      rfl
    · rw [if_neg here]
  · rw [wealth_setValidator found, same]
    omega

theorem SameStakes.foldl (step : ValidatorGovernance → ValidatorInfo → ValidatorGovernance)
    (writes : ∀ g v, (g.getValidator v.id).map ValidatorInfo.stake = some v.stake → SameStakes g (step g v))
    (vs : List ValidatorInfo) (g : ValidatorGovernance)
    (known : ∀ v ∈ vs, (g.getValidator v.id).map ValidatorInfo.stake = some v.stake) :
    SameStakes g (vs.foldl step g) := by
  induction vs generalizing g with
  | nil => exact SameStakes.refl g
  | cons v vs ih =>
    have first := writes g v (known v List.mem_cons_self)
    apply first.trans
    apply ih
    intro other member
    rw [first.stake]
    exact known other (List.mem_cons_of_mem _ member)

theorem stake_of_mem (member : v ∈ g.validators.entries.map Prod.snd) :
    (g.getValidator v.id).map ValidatorInfo.stake = some v.stake := by
  obtain ⟨⟨key, value⟩, present, rfl⟩ := List.mem_map.mp member
  have found := get?_eq_of_mem present
  rw [g.keyed key value found, getValidator, found]
  rfl

theorem recalcVotingPower_sameStakes (g : ValidatorGovernance) : SameStakes g g.recalcVotingPower := by
  have powered := SameStakes.foldl
    (fun r v => r.setValidator
      { v with votingPower := powerOf ((g.getActiveValidators.map ValidatorInfo.stake).sum) v })
    (fun r v known => SameStakes.setValidator known) g.getActiveValidators g (by
      intro v member
      exact stake_of_mem (List.mem_filter.mp member).1)
  apply powered.trans
  apply SameStakes.foldl
  · intro r v known
    split
    · exact SameStakes.setValidator known
    · exact SameStakes.refl r
  · intro v member
    exact stake_of_mem member

theorem deactivateValidator_sameStakes (g : ValidatorGovernance) (validatorId : String) :
    SameStakes g (g.deactivateValidator validatorId) := by
  unfold deactivateValidator
  split
  · exact SameStakes.refl g
  · rename_i v found
    split
    · exact SameStakes.refl g
    · have own : v.id = validatorId := g.keyed validatorId v found
      have known : (g.getValidator v.id).map ValidatorInfo.stake = some v.stake := by
        rw [own, found]
        rfl
      have written : SameStakes g (g.setValidator { v with active := false }) := SameStakes.setValidator known
      exact written.trans (recalcVotingPower_sameStakes _)

theorem applySlash_stake {amount : Int} (found : g.getValidator id = some v) (active : v.active = true)
    (positive : 0 < amount) (covered : amount ≤ v.stake) :
    (g.applySlash id amount).wealth = g.wealth - amount ∧
      ∀ other, ((g.applySlash id amount).getValidator other).map ValidatorInfo.stake =
        if other = id then some (v.stake - amount) else (g.getValidator other).map ValidatorInfo.stake := by
  have own : v.id = id := g.keyed id v found
  have newStake : (if amount < v.stake then v.stake - amount else 0) = v.stake - amount := by
    by_cases less : amount < v.stake
    · rw [if_pos less]
    · omega
  unfold applySlash
  rw [if_neg (by omega), found]
  dsimp only
  rw [active, newStake]
  generalize slashed : ({ v with stake := v.stake - amount, active := !(v.stake - amount == 0) } : ValidatorInfo) = v'
  have sameId : v'.id = id := by rw [← slashed]; exact own
  have sameStake : v'.stake = v.stake - amount := by rw [← slashed]
  have recalculated := recalcVotingPower_sameStakes (g.setValidator v')
  change (g.setValidator v').recalcVotingPower.wealth = _ ∧ ∀ other,
    ((g.setValidator v').recalcVotingPower.getValidator other).map ValidatorInfo.stake = _
  constructor
  · rw [recalculated.wealth, wealth_setValidator (by rw [sameId]; exact found), sameStake]
    omega
  · intro other
    rw [recalculated.stake, getValidator_setValidator, sameId]
    by_cases here : other = id
    · rw [if_pos here, if_pos here]
      exact congrArg some sameStake
    · rw [if_neg here, if_neg here]

end ValidatorGovernance

end Palimesh.Governance
