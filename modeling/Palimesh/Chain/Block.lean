import Mathlib

namespace Palimesh

abbrev Hex := String

/-- JavaScript's `toLowerCase` on the ASCII alphabet of ids and hex strings. -/
def toLowerCase (s : String) : String := String.ofList (s.toList.map Char.toLower)

theorem toLower_of_not_upper {c : Char} (other : ¬ (c.val ≥ 'A'.val ∧ c.val ≤ 'Z'.val)) :
    c.toLower = c := dif_neg other

theorem toLower_idem (c : Char) : c.toLower.toLower = c.toLower := by
  apply toLower_of_not_upper
  by_cases upper : c.val ≥ 'A'.val ∧ c.val ≤ 'Z'.val
  · have lowered : c.toLower.val = c.val + ('a'.val - 'A'.val) := by rw [Char.toLower, dif_pos upper]
    rw [lowered]
    intro above
    have first : 65 ≤ c.val.toNat := upper.1
    have last : c.val.toNat ≤ 90 := upper.2
    have shifted : (c.val.toNat + 32) % 2 ^ 32 ≤ 90 := above.2
    omega
  · rw [toLower_of_not_upper upper]
    exact upper

@[simp] theorem toLowerCase_idem (s : String) : toLowerCase (toLowerCase s) = toLowerCase s := by
  have same : Char.toLower ∘ Char.toLower = Char.toLower := funext toLower_idem
  rw [toLowerCase, toLowerCase, String.toList_ofList, List.map_map, same]

def zeroHash : Hex := "0x0000000000000000000000000000000000000000000000000000000000000000"

structure ChainBlock where
  number : Int
  hash : Hex
  parentHash : Hex
  proposer : String
  timestampMs : Int
  txs : List Hex
  finalized : Bool
  bftFinalized : Option Bool := none
  signature : Option Hex := none
  stateRootSig : Option Hex := none
  stateRoot : Option Hex := none
  baseFee : Option Int := none
  gasUsed : Option Int := none
  cumulativeWeight : Option Int := none
  blobGasUsed : Option Int := none
  excessBlobGas : Option Int := none
  parentBeaconBlockRoot : Option Hex := none
deriving DecidableEq, Repr

end Palimesh
