import Mathlib

namespace Collections

open List

inductive Front (α β ε : Type)
  | incomplete
  | item (value : α) (rest : List β)
  | malformed (error : ε)

variable {α β ε : Type}

def Front.stop : Option ε → Front α β ε
  | none => .incomplete
  | some error => .malformed error

/-- Take items off the front as long as there are whole ones: the items, what is left, and the error if any. -/
def drain (front : List β → Front α β ε) : Nat → List β → List α × List β × Option ε
  | 0, input => ([], input, none)
  | fuel + 1, input =>
    match front input with
    | .incomplete => ([], input, none)
    | .malformed error => ([], input, some error)
    | .item value rest =>
      let (values, left, error) := drain front fuel rest
      (value :: values, left, error)

/-- An encoding that a front decoder can cut out of a stream. -/
structure SelfDelimiting (encode : α → List β) (front : List β → Front α β ε) (Valid : α → Prop) : Prop where
  nonempty : ∀ value, encode value ≠ []
  empty : front [] = .incomplete
  whole : ∀ value rest, Valid value → front (encode value ++ rest) = .item value rest
  part : ∀ value input missing, Valid value → encode value = input ++ missing → missing ≠ [] → front input = .incomplete

namespace SelfDelimiting

variable {encode : α → List β} {front : List β → Front α β ε} {Valid : α → Prop}

/-- The bytes in hand are a proper part of the first item that is still to come. -/
def Begun (encode : α → List β) (left : List β) : List α → Prop
  | [] => True
  | value :: _ => ∃ missing, missing ≠ [] ∧ encode value = left ++ missing

theorem begun_nil (code : SelfDelimiting encode front Valid) (values : List α) : Begun encode [] values := by
  cases values with
  | nil => trivial
  | cons value values => exact ⟨encode value, code.nonempty value, rfl⟩

theorem Begun.incomplete (code : SelfDelimiting encode front Valid) {left : List β} {waiting : List α}
    (valid : ∀ value ∈ waiting, Valid value) (begun : Begun encode left waiting) (some_ : waiting ≠ []) :
    front left = .incomplete := by
  cases waiting with
  | nil => exact absurd rfl some_
  | cons value values =>
    rcases begun with ⟨missing, lacking, cut⟩
    exact code.part value left missing (valid value mem_cons_self) cut lacking

theorem nothing_waiting {left : List β} {waiting : List α} (begun : Begun encode left waiting)
    (ended : left = waiting.flatMap encode) : waiting = [] := by
  cases waiting with
  | nil => rfl
  | cons value values =>
    rcases begun with ⟨missing, lacking, cut⟩
    have longer := congrArg length ended
    have positive := List.length_pos_iff.mpr lacking
    simp only [flatMap_cons, cut, length_append] at longer
    omega

theorem drain_stop (code : SelfDelimiting encode front Valid) {fuel : Nat} {input : List β} {error : Option ε}
    (stopped : front input = .stop error) (enough : input.length ≤ fuel) : drain front fuel input = ([], input, error) := by
  cases fuel with
  | zero =>
    have nothing : input = [] := List.length_eq_zero_iff.mp (by omega)
    rw [nothing, code.empty] at stopped
    cases error with
    | none => rfl
    | some error => cases stopped
  | succ fuel => cases error <;> simp only [drain, stopped, Front.stop]

/-- Values followed by a tail: the whole values come out, and the rest decides how the loop ends. -/
theorem drain_stream (code : SelfDelimiting encode front Valid) {fuel : Nat} {input later tail : List β}
    {values : List α} (valid : ∀ value ∈ values, Valid value)
    (stream : input ++ later = values.flatMap encode ++ tail) (enough : input.length ≤ fuel) :
    ∃ ready waiting left, values = ready ++ waiting ∧ left ++ later = waiting.flatMap encode ++ tail ∧
      Begun encode left waiting ∧
      ∀ error, front left = .stop error → drain front fuel input = (ready, left, error) := by
  induction values generalizing fuel input with
  | nil => exact ⟨[], [], input, rfl, stream, trivial, fun error stopped => code.drain_stop stopped enough⟩
  | cons value values ih =>
    have own := valid value mem_cons_self
    rw [flatMap_cons, append_assoc] at stream
    -- Either the first item is there as a whole, or some of it is missing.
    have cut : (∃ extra, input = encode value ++ extra ∧ extra ++ later = values.flatMap encode ++ tail) ∨
        ∃ missing, missing ≠ [] ∧ encode value = input ++ missing := by
      rcases List.append_eq_append_iff.mp stream with ⟨missing, whole, rest⟩ | ⟨extra, whole, rest⟩
      · cases missing with
        | nil => exact .inl ⟨[], by rw [append_nil, whole, append_nil], rest.symm ▸ rfl⟩
        | cons head tail => exact .inr ⟨head :: tail, cons_ne_nil _ _, whole⟩
      · exact .inl ⟨extra, whole, rest.symm⟩
    rcases cut with ⟨extra, rfl, rest⟩ | begun
    · have positive := List.length_pos_iff.mpr (code.nonempty value)
      rw [length_append] at enough
      cases fuel with
      | zero => omega
      | succ fuel =>
        have shorter : extra.length ≤ fuel := by omega
        rcases ih (fun other member => valid other (mem_cons_of_mem _ member)) rest shorter with
          ⟨ready, waiting, left, split, continues, begun, drained⟩
        apply Exists.intro (value :: ready)
        refine ⟨waiting, left, by rw [split, cons_append], continues, begun, ?_⟩
        intro error stopped
        simp only [drain, code.whole value extra own, drained error stopped]
    · refine ⟨[], value :: values, input, rfl, ?_, begun, fun error stopped => code.drain_stop stopped enough⟩
      rw [stream, flatMap_cons, append_assoc]

end SelfDelimiting

end Collections
