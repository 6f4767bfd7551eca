import Palimesh.Chain.Validation

namespace Palimesh.Chain

open List

def stakes (validators : List ValidatorInfo) : Int := (validators.map ValidatorInfo.stake).sum

section Picks

variable {seed start : Int} {validators : List ValidatorInfo} {v : ValidatorInfo}

theorem stakes_cons : stakes (v :: validators) = v.stake + stakes validators := by
  rw [stakes, map_cons, sum_cons, stakes]

theorem pickByStake_some (above : start ≤ seed) (below : seed < start + stakes validators) :
    ∃ v ∈ validators, pickByStake seed start validators = some v.id := by
  induction validators generalizing start with
  | nil =>
    rw [stakes, map_nil, sum_nil] at below
    omega
  | cons v rest ih =>
    rw [stakes_cons] at below
    rw [pickByStake]
    split
    · exact ⟨v, mem_cons_self, rfl⟩
    · rcases @ih (start + v.stake) (by omega) (by omega) with ⟨u, member, found⟩
      exact ⟨u, mem_cons_of_mem v member, found⟩

theorem mem_of_pickByStake {id : String} (found : pickByStake seed start validators = some id) :
    id ∈ validators.map ValidatorInfo.id := by
  induction validators generalizing start with
  | nil => cases found
  | cons v rest ih =>
    rw [pickByStake] at found
    split at found
    · simp [Option.some.inj found]
    · exact mem_cons_of_mem _ (ih found)

theorem pickByStake_interval (nonneg : ∀ v ∈ validators, 0 ≤ v.stake)
    (distinct : (validators.map ValidatorInfo.id).Nodup) (member : v ∈ validators) :
    ∃ first ≥ start, first + v.stake ≤ start + stakes validators ∧ ∀ seed ≥ start,
      pickByStake seed start validators = some v.id ↔ first ≤ seed ∧ seed < first + v.stake := by
  induction validators generalizing start with
  | nil => cases member
  | cons u rest ih =>
    rcases forall_mem_cons.mp nonneg with ⟨first, others⟩
    rcases nodup_cons.mp distinct with ⟨new, differ⟩
    rw [stakes_cons]
    simp only [pickByStake]
    rcases mem_cons.mp member with rfl | later
    · have left : 0 ≤ stakes rest := by
        apply sum_nonneg
        simpa using others
      refine ⟨start, Int.le_refl _, by omega, fun seed above => ?_⟩
      split
      · simp [*]
      · have other : pickByStake seed (start + v.stake) rest ≠ some v.id := fun found => new (mem_of_pickByStake found)
        simp [*]
    · have other : u.id ≠ v.id := fun same => new (same ▸ mem_map_of_mem later)
      rcases @ih (start + u.stake) others differ later with ⟨place, after, inside, picks⟩
      refine ⟨place, by omega, by omega, fun seed above => ?_⟩
      split
      · simp [other]
        omega
      · exact picks seed (by omega)

end Picks

variable (host : Host) (validators : List ValidatorInfo)

/-- `localeCompare` orders all strings, but may not tell some apart. -/
structure Host.Collates : Prop where
  total : ∀ a b, host.localeLe a b = true ∨ host.localeLe b a = true
  trans : ∀ a b c, host.localeLe a b = true → host.localeLe b c = true → host.localeLe a c = true

def byId : List ValidatorInfo :=
  validators.insertionSort fun a b => host.localeLe a.id b.id = true

def selected (seed : Int) : Option String :=
  pickByStake seed 0 (byId host validators)

variable {host : Host} {validators : List ValidatorInfo}

theorem stakes_byId : stakes (byId host validators) = stakes validators := ((perm_insertionSort _ _).map _).sum_eq

theorem byId_perm (collates : host.Collates) {others : List ValidatorInfo} (perm : others.Perm validators)
    (apart : ∀ v ∈ validators, ∀ w ∈ validators, host.localeLe v.id w.id = true → host.localeLe w.id v.id = true → v = w) :
    byId host others = byId host validators := by
  have : Std.Total fun a b : ValidatorInfo => host.localeLe a.id b.id = true := ⟨fun a b => collates.total a.id b.id⟩
  have : IsTrans ValidatorInfo fun a b => host.localeLe a.id b.id = true :=
    ⟨fun a b c => collates.trans a.id b.id c.id⟩
  apply Perm.eq_of_pairwise _ (pairwise_insertionSort _ _) (pairwise_insertionSort _ _)
  · exact (perm_insertionSort _ _).trans (perm.trans (perm_insertionSort _ _).symm)
  · intro v w inV inW
    rw [mem_insertionSort] at inV inW
    exact apart v (perm.mem_iff.mp inV) w inW

theorem stakeWeightedProposer_selected (funded : 0 < stakes validators) (height : Int) :
    ∃ seed ≥ 0, seed < stakes validators ∧ ∃ id, selected host validators seed = some id ∧
      stakeWeightedProposer host validators height = .ok id := by
  have low := Int.tmod_nonneg (stakes validators) (Int.natCast_nonneg (hexValue (host.keccak256Hex (toString height))))
  have high := Int.tmod_lt_of_pos (hexValue (host.keccak256Hex (toString height)) : Int) funded
  have total : stakes (byId host validators) = stakes validators := stakes_byId
  rcases @pickByStake_some _ 0 (byId host validators) low (by omega) with ⟨v, -, found⟩
  refine ⟨_, low, high, v.id, found, ?_⟩
  unfold stakeWeightedProposer
  unfold byId stakes at total found
  simp only
  rw [total]
  unfold stakes at funded
  rw [if_neg (by omega)]
  simp only [found]

/-- The code points, a letter with an acute accent as the letter and the accent. -/
def codes (text : String) : List Nat := text.toList.flatMap fun c => if c = 'é' then [101, 769] else [c.toNat]

/-- Canonically equivalent strings compare equal. -/
def unicodeHost : Host where
  keccak256Hex _ := "0"
  localeLe a b := decide (codes a ≤ codes b)
  bigInt _ := none
  hexToBytes _ := .ok []
  jsonString := id

theorem unicodeHost_collates : unicodeHost.Collates where
  total a b := by simpa [unicodeHost] using le_total (codes a) (codes b)
  trans a b c := by simpa [unicodeHost] using le_trans

def sampleValidator (id : String) : ValidatorInfo := ⟨id, "", 1, true⟩

end Palimesh.Chain
