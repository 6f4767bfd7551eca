import Palimesh.Collections.Mapping

namespace Collections.IndexedList

open List InsertionMap

variable {α : Type} [DecidableEq α]

/-- A list and a map from its items to their positions, counted from one; zero stands for absence. -/
def Inverse (items : List α) (index : InsertionMap α Nat) : Prop :=
  ∀ i item, items[i]? = some item ↔ index.read item = i + 1

variable {items : List α} {index : InsertionMap α Nat}

theorem Inverse.empty : Inverse ([] : List α) .empty := by
  intro i item
  simp [InsertionMap.read, get?_empty]

theorem Inverse.nodup (inverse : Inverse items index) : items.Nodup := by
  rw [nodup_iff_injective_getElem]
  intro i j same
  have first := (inverse i _).mp (getElem?_eq_getElem i.isLt)
  have second := (inverse j _).mp (getElem?_eq_getElem j.isLt)
  dsimp only at same
  rw [same, second] at first
  exact Fin.ext (by omega)

variable {item : α}

/-- The last item moves to the place of the one that is taken out, unless that is the last itself. -/
def takeOut (items : List α) (i : Nat) (last : α) : List α :=
  (if i ≠ items.length - 1 then items.set i last else items).dropLast

def forget (index : InsertionMap α Nat) (item : α) (i length : Nat) (last : α) : InsertionMap α Nat :=
  (if i ≠ length - 1 then index.set last (i + 1) else index).set item 0

omit [DecidableEq α] in
theorem length_takeOut (items : List α) (i : Nat) (last : α) : (takeOut items i last).length = items.length - 1 := by
  unfold takeOut
  rw [length_dropLast]
  split
  · rw [length_set]
  · rfl

variable {i : Nat} {last : α}

omit [DecidableEq α] in
theorem getElem?_takeOut (inside : i < items.length) (j : Nat) :
    (takeOut items i last)[j]? = if j < items.length - 1 then if j = i then some last else items[j]? else none := by
  rw [takeOut, getElem?_dropLast]
  by_cases final : i = items.length - 1
  · rw [if_neg (not_not.mpr final)]
    split
    · rw [if_neg (by omega)]
    · rfl
  · rw [if_pos final, length_set]
    split
    · rw [getElem?_set]
      by_cases same : j = i
      · subst same
        rw [if_pos rfl, if_pos rfl, if_pos inside]
      · rw [if_neg (Ne.symm same), if_neg same]
    · rfl

theorem read_forget {other : α} {length : Nat} (other_ne : other ≠ item)
    (moves : i = length - 1 → last = item) :
    (forget index item i length last).read other = if other = last then i + 1 else index.read other := by
  rw [forget, read_set, if_neg other_ne]
  by_cases final : i = length - 1
  · rw [if_neg (not_not.mpr final), if_neg fun same => other_ne (same.trans (moves final))]
  · rw [if_pos final, read_set]

variable (inverse : Inverse items index)
include inverse

theorem Inverse.mem_iff : item ∈ items ↔ index.read item ≠ 0 := by
  constructor
  · intro member
    obtain ⟨i, _, rfl⟩ := getElem_of_mem member
    have position := (inverse i _).mp (getElem?_eq_getElem ‹_›)
    omega
  · intro indexed
    have position : index.read item = (index.read item - 1) + 1 := by omega
    exact mem_of_getElem? ((inverse _ _).mpr position)

theorem Inverse.lt_length (position : index.read item = i + 1) : i < items.length :=
  (List.getElem?_eq_some_iff.mp ((inverse i item).mpr position)).1

theorem Inverse.push (absent : index.read item = 0) :
    Inverse (items ++ [item]) (index.set item (items.length + 1)) := by
  intro i other
  rw [read_set]
  by_cases same : other = item
  · subst same
    rw [if_pos rfl]
    constructor
    · intro found
      by_cases inside : i < items.length
      · rw [getElem?_append_left inside] at found
        have := (inverse i other).mp found
        omega
      · have bound := (List.getElem?_eq_some_iff.mp found).1
        rw [length_append, length_singleton] at bound
        omega
    · intro position
      obtain rfl : items.length = i := by omega
      exact getElem?_concat_length
  · rw [if_neg same]
    by_cases inside : i < items.length
    · rw [getElem?_append_left inside]
      exact inverse i other
    · constructor
      · intro found
        rw [getElem?_append_right (by omega), getElem?_singleton] at found
        split at found
        · cases found
          exact absurd rfl same
        · cases found
      · intro position
        exact absurd (inverse.lt_length position) inside

theorem Inverse.last_eq (position : index.read item = i + 1)
    (final : items[items.length - 1]? = some last) (same : i = items.length - 1) : last = item := by
  rw [← same, (inverse i item).mpr position] at final
  exact (Option.some.inj final).symm

theorem Inverse.takeOut (position : index.read item = i + 1)
    (final : items[items.length - 1]? = some last) :
    Inverse (takeOut items i last) (forget index item i items.length last) := by
  have inside := inverse.lt_length position
  have here : items[i]? = some item := (inverse i item).mpr position
  have moves := inverse.last_eq position final
  have atLast : index.read last = items.length - 1 + 1 := (inverse _ _).mp final
  intro j other
  rw [getElem?_takeOut inside]
  by_cases removed : other = item
  · subst removed
    rw [forget, read_set_self]
    constructor
    · intro found
      split at found
      · split at found
        · cases found
          omega
        · have := (inverse j other).mp found
          omega
      · cases found
    · intro zero
      omega
  · rw [read_forget removed moves]
    by_cases moved : other = last
    · subst moved
      rw [if_pos rfl]
      constructor
      · intro found
        split at found
        · split at found
          · omega
          · have := (inverse j other).mp found
            omega
        · cases found
      · intro place
        have away : i ≠ items.length - 1 := fun same => removed (moves same)
        rw [if_pos (by omega), if_pos (by omega)]
    · rw [if_neg moved]
      constructor
      · intro found
        split at found
        · split at found
          · cases found
            exact absurd rfl moved
          · exact (inverse j other).mp found
        · cases found
      · intro place
        have found := (inverse j other).mpr place
        have bound := inverse.lt_length place
        have notLast : j ≠ items.length - 1 := by
          rintro rfl
          rw [final] at found
          cases found
          exact moved rfl
        have notFirst : j ≠ i := by
          rintro rfl
          rw [here] at found
          cases found
          exact removed rfl
        rw [if_pos (by omega), if_neg notFirst, found]

theorem Inverse.mem_takeOut (position : index.read item = i + 1)
    (final : items[items.length - 1]? = some last) (other : α) :
    other ∈ IndexedList.takeOut items i last ↔ other ∈ items ∧ other ≠ item := by
  rw [(inverse.takeOut position final).mem_iff, inverse.mem_iff]
  by_cases removed : other = item
  · subst removed
    rw [forget, read_set_self]
    simp
  · rw [read_forget removed (inverse.last_eq position final)]
    have atLast : index.read last = items.length - 1 + 1 := (inverse _ _).mp final
    by_cases moved : other = last
    · subst moved
      simp [removed, atLast]
    · rw [if_neg moved]
      simp [removed]

end Collections.IndexedList
