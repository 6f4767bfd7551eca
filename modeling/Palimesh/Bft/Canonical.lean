import Palimesh.Bft.Coordinator
import Palimesh.Collections.DelimitedText

namespace Palimesh.Bft

open Collections

theorem bftCanonicalMessage_inj {type type' : MessageType} {height height' : Int} {hash hash' : Hex}
    (same : bftCanonicalMessage type height hash = bftCanonicalMessage type' height' hash') :
    type = type' ∧ height = height' ∧ hash = hash' := by
  have texts := congrArg String.toList same
  simp only [bftCanonicalMessage, String.toList_append, List.append_assoc] at texts
  have colon : ":".toList = [':'] := by decide
  rw [colon, List.append_cancel_left_eq] at texts
  have first : ':' ∉ type.text.toList := by cases type <;> decide
  have second : ':' ∉ type'.text.toList := by cases type' <;> decide
  obtain ⟨types, rest⟩ := split_at_first first second texts
  have inHeight (height : Int) : ':' ∉ (toString height).toList := notMem_int (by decide) (by decide) height
  obtain ⟨heights, hashes⟩ := split_at_first (inHeight height) (inHeight height') rest
  refine ⟨?_, ?_, String.toList_injective hashes⟩
  · revert types
    cases type <;> cases type' <;> decide
  · exact Int.repr_inj.mp (String.toList_injective heights)

end Palimesh.Bft
