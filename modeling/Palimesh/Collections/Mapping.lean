import Palimesh.Collections.InsertionMap

namespace Collections.InsertionMap

open List

variable {κ ν : Type} [DecidableEq κ] [Inhabited ν] {amount : ν → Nat}

section

variable (m : InsertionMap κ ν)

/-- A map read as a total one: keys that were never set hold the default. -/
def read (key : κ) : ν := (m.get? key).getD default

@[simp] theorem read_empty (key : κ) : (empty : InsertionMap κ ν).read key = default := rfl

@[simp] theorem read_set (key other : κ) (value : ν) :
    (m.set key value).read other = if other = key then value else m.read other := by
  rw [read, get?_set]
  split <;> rfl

theorem read_set_self (key : κ) (value : ν) : (m.set key value).read key = value := by
  rw [read_set, if_pos rfl]

theorem read_set_other {key other : κ} (value : ν) (differ : other ≠ key) :
    (m.set key value).read other = m.read other := by
  rw [read_set, if_neg differ]

theorem map_read_set {γ : Type} (f : ν → γ) (m : InsertionMap κ ν) (key : κ) (value : ν) :
    (fun other => f ((m.set key value).read other)) = Function.update (fun other => f (m.read other)) key (f value) := by
  funext other
  rw [read_set, Function.update_apply]
  split <;> rfl

def total (amount : ν → Nat) : Nat := (m.entries.map fun entry => amount entry.2).sum

omit [DecidableEq κ] [Inhabited ν] in
theorem total_mono {bound : ν → Nat} (le : ∀ value, amount value ≤ bound value) :
    m.total amount ≤ m.total bound :=
  sum_le_sum fun entry _ => le entry.2

theorem total_set (nothing : amount default = 0) (key : κ) (value : ν) :
    (m.set key value).total amount + amount (m.read key) = m.total amount + amount value := by
  cases found : m.get? key with
  | some old =>
    have exchanged := sum_set m (fun v => (amount v : Int)) value found
    have casts : ∀ entries : List (κ × ν), (entries.map fun entry => (amount entry.2 : Int)).sum =
        ((entries.map fun entry => amount entry.2).sum : Nat) := by
      intro entries
      induction entries with
      | nil => rfl
      | cons entry entries ih => simp [ih]
    rw [casts, casts] at exchanged
    rw [read, found, Option.getD_some]
    unfold total
    omega
  | none =>
    have missing : key ∉ m.entries.map Prod.fst := by
      intro member
      have present := (mem_keys m key).mp member
      rw [found] at present
      cases present
    rw [read, found, Option.getD_none, nothing]
    unfold total set
    rw [dif_neg missing]
    simp

theorem le_total (nothing : amount default = 0) (key : κ) :
    amount (m.read key) ≤ m.total amount := by
  have cleared := total_set m nothing key default
  omega

theorem total_set_eq (nothing : amount default = 0) (key : κ) (value : ν) :
    (m.set key value).total amount = m.total amount - amount (m.read key) + amount value := by
  have exchanged := total_set m nothing key value
  have bound := le_total m nothing key
  omega

end

/-- A map that has the given value at a key, and is otherwise as before. -/
inductive Replaced (m : InsertionMap κ ν) (key : κ) (value : ν) (m' : InsertionMap κ ν) : Prop
  | set (is : m' = m.set key value)
  | same (is : m' = m) (kept : value = m.read key := by rfl)

section Replaced

variable {m m' : InsertionMap κ ν} {key : κ} {value : ν}

theorem Replaced.read (replaced : m.Replaced key value m') (other : κ) :
    m'.read other = if other = key then value else m.read other := by
  cases replaced with
  | set is => rw [is, read_set]
  | same is kept =>
    rw [is]
    split
    · rename_i here
      rw [here, kept]
    · rfl

theorem Replaced.total (replaced : m.Replaced key value m') (nothing : amount default = 0) :
    m'.total amount + amount (m.read key) = m.total amount + amount value := by
  cases replaced with
  | set is => rw [is, total_set m nothing]
  | same is kept => rw [is, kept]

end Replaced

/-- The keys of a map weighed by what else is known of them. -/
def weigh (m : InsertionMap κ ν) (weight : κ → Nat) : Nat := (m.keys.map weight).sum

omit [Inhabited ν] in
theorem weigh_set (m : InsertionMap κ ν) (before after : κ → Nat) (key : κ) (value : ν)
    (same : ∀ other, other ≠ key → after other = before other) (nothing : m.get? key = none → before key = 0) :
    (m.set key value).weigh after + before key = m.weigh before + after key := by
  unfold weigh keys
  by_cases present : key ∈ m.entries.map Prod.fst
  · have exchanged : ∀ names : List κ, names.Nodup → key ∈ names →
        (names.map after).sum + before key = (names.map before).sum + after key := by
      intro names nodup member
      induction names with
      | nil => cases member
      | cons name names ih =>
        obtain ⟨outside, nodup⟩ := List.nodup_cons.mp nodup
        rw [map_cons, map_cons, sum_cons, sum_cons]
        by_cases here : name = key
        · subst here
          have rest : names.map after = names.map before :=
            map_congr_left fun other inside => same other fun equal => outside (equal ▸ inside)
          rw [rest]
          omega
        · have rest := ih nodup ((List.mem_cons.mp member).resolve_left (Ne.symm here))
          rw [same name here]
          omega
    unfold set
    rw [dif_pos present]
    rw [replace_keys]
    exact exchanged _ m.nodup present
  · have absent : m.get? key = none := by
      by_contra found
      exact present ((mem_keys m key).mpr (Option.isSome_iff_ne_none.mpr found))
    have rest : (m.entries.map Prod.fst).map after = (m.entries.map Prod.fst).map before :=
      map_congr_left fun other inside => same other fun equal => present (equal ▸ inside)
    unfold set
    rw [dif_neg present, map_append, map_append, sum_append, rest, nothing absent]
    simp

end Collections.InsertionMap
