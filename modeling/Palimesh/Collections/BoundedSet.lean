import Mathlib

namespace Collections

open List

variable {α : Type}

/-- A set that forgets its oldest members when it is full. -/
structure BoundedSet (α : Type) (capacity : Nat) where
  items : List α
  nodup : items.Nodup
  bounded : items.length ≤ max 1 capacity
deriving DecidableEq

namespace BoundedSet

variable {capacity : Nat} {value : α}

def empty : BoundedSet α capacity := ⟨[], nodup_nil, Nat.zero_le _⟩

variable [DecidableEq α] (s : BoundedSet α capacity)

def has (value : α) : Bool := s.items.contains value

def kept : List α := s.items.drop (s.items.length + 1 - capacity)

def add (value : α) : BoundedSet α capacity :=
  if fresh : value ∈ s.items then s
  else
    { items := s.kept ++ [value]
      nodup := by
        have absent : value ∉ s.kept := fun member => fresh (mem_of_mem_drop member)
        rw [nodup_append_comm]
        exact List.nodup_cons.mpr ⟨absent, s.nodup.sublist (drop_sublist _ _)⟩
      bounded := by
        have lengths : s.kept.length = s.items.length - (s.items.length + 1 - capacity) := length_drop
        rw [length_append, lengths]
        simp only [length_cons, length_nil]
        omega }

theorem has_iff : s.has value = true ↔ value ∈ s.items := contains_iff_mem

theorem items_add (fresh : value ∉ s.items) (room : s.items.length < capacity) :
    (s.add value).items = s.items ++ [value] := by
  have none : s.items.length + 1 - capacity = 0 := by omega
  unfold add
  rw [dif_neg fresh]
  show s.kept ++ [value] = s.items ++ [value]
  rw [kept, none, drop_zero]

end BoundedSet

end Collections
