import Mathlib

namespace Collections

open List

/-- A finite map that remembers the order in which its keys were first set: a present key keeps its place, a
    deleted one that is set again goes last. -/
structure InsertionMap (κ ν : Type) where
  entries : List (κ × ν)
  nodup : (entries.map Prod.fst).Nodup

namespace InsertionMap

variable {κ ν : Type}

theorem ext_entries {m n : InsertionMap κ ν} (same : m.entries = n.entries) : m = n := by
  cases m
  cases n
  cases same
  rfl

instance [DecidableEq κ] [DecidableEq ν] : DecidableEq (InsertionMap κ ν) := fun m n =>
  if same : m.entries = n.entries then .isTrue (ext_entries same)
  else .isFalse fun equal => same (congrArg entries equal)

def empty : InsertionMap κ ν := ⟨[], nodup_nil⟩

section

variable (m : InsertionMap κ ν)

def keys : List κ := m.entries.map Prod.fst

def size : Nat := m.entries.length

def filterKeys (keep : κ → Bool) : InsertionMap κ ν :=
  ⟨m.entries.filter fun entry => keep entry.1,
    (List.filter_sublist.map Prod.fst).nodup m.nodup⟩

def filterValues (keep : ν → Bool) : InsertionMap κ ν :=
  ⟨m.entries.filter fun entry => keep entry.2, (List.filter_sublist.map Prod.fst).nodup m.nodup⟩

def mapValues (f : ν → ν) : InsertionMap κ ν :=
  ⟨m.entries.map fun entry => (entry.1, f entry.2), by
    rw [map_map]
    exact m.nodup⟩

def dropOldest (count : Nat) : InsertionMap κ ν :=
  ⟨m.entries.drop count, ((drop_sublist count m.entries).map Prod.fst).nodup m.nodup⟩

end

variable {key : κ} {value : ν}

theorem append_nodup {entries : List (κ × ν)} (nodup : (entries.map Prod.fst).Nodup)
    (absent : key ∉ entries.map Prod.fst) : ((entries ++ [(key, value)]).map Prod.fst).Nodup := by
  rw [map_append]
  refine nodup.append (by simp) ?_
  intro other member single
  simp only [map_cons, map_nil, mem_singleton] at single
  exact absent (single ▸ member)

variable [DecidableEq κ]

def get? (m : InsertionMap κ ν) (key : κ) : Option ν := m.entries.lookup key

def has (m : InsertionMap κ ν) (key : κ) : Bool := (m.get? key).isSome

def delete (m : InsertionMap κ ν) (key : κ) : InsertionMap κ ν :=
  m.filterKeys fun other => other ≠ key

variable (entries : List (κ × ν))

theorem replace_keys (key : κ) (value : ν) :
    (entries.map fun entry => if entry.1 = key then (key, value) else entry).map Prod.fst =
      entries.map Prod.fst := by
  rw [map_map]
  apply map_congr_left
  intro entry _
  by_cases same : entry.1 = key
  · simp [same]
  · simp [same]

def set (m : InsertionMap κ ν) (key : κ) (value : ν) : InsertionMap κ ν :=
  if present : key ∈ m.entries.map Prod.fst then
    ⟨m.entries.map fun entry => if entry.1 = key then (key, value) else entry,
      (replace_keys m.entries key value).symm ▸ m.nodup⟩
  else ⟨m.entries ++ [(key, value)], append_nodup m.nodup present⟩

theorem lookup_filter (keep : κ → Bool) (key : κ) :
    (entries.filter fun entry => keep entry.1).lookup key =
      if keep key then entries.lookup key else none := by
  induction entries with
  | nil => simp
  | cons entry entries ih =>
    obtain ⟨head, value⟩ := entry
    by_cases kept : keep head
    · by_cases same : key = head
      · simp [kept, same]
      · have differ : (key == head) = false := by simpa using same
        simp [kept, lookup_cons, differ, ih]
    · by_cases same : key = head
      · subst same
        simp [kept, ih]
      · have differ : (key == head) = false := by simpa using same
        simp [kept, lookup_cons, differ, ih]

theorem lookup_replace (key other : κ) (value : ν) (present : key ∈ entries.map Prod.fst) :
    (entries.map fun entry => if entry.1 = key then (key, value) else entry).lookup other =
      if other = key then some value else entries.lookup other := by
  induction entries with
  | nil => simp at present
  | cons entry entries ih =>
    obtain ⟨head, old⟩ := entry
    by_cases same : head = key
    · subst same
      by_cases hit : other = head
      · simp [hit]
      · have differ : (other == head) = false := by simpa using hit
        by_cases later : head ∈ entries.map Prod.fst
        · have rest := ih later
          simpa [lookup_cons, differ, hit] using rest
        · have untouched : (entries.map fun entry => if entry.1 = head then (head, value) else entry) =
              entries := by
            conv_rhs => rw [← map_id entries]
            apply map_congr_left
            intro entry member
            have distinct : entry.1 ≠ head :=
              fun equal => later (List.mem_map.mpr ⟨entry, member, equal⟩)
            simp [distinct]
          simp [untouched, lookup_cons, differ, hit]
    · have later : key ∈ entries.map Prod.fst := by
        simp only [map_cons, mem_cons] at present
        exact present.resolve_left fun equal => same equal.symm
      have rest := ih later
      by_cases hit : other = head
      · subst hit
        simp [same]
      · have differ : (other == head) = false := by simpa using hit
        simpa [same, lookup_cons, differ] using rest

@[simp] theorem get?_empty (key : κ) : (empty : InsertionMap κ ν).get? key = none := rfl

variable (m : InsertionMap κ ν)

@[simp] theorem get?_filterKeys (keep : κ → Bool) (key : κ) :
    (m.filterKeys keep).get? key = if keep key then m.get? key else none :=
  lookup_filter m.entries keep key

@[simp] theorem get?_delete (key other : κ) :
    (m.delete key).get? other = if other = key then none else m.get? other := by
  rw [delete, get?_filterKeys]
  by_cases same : other = key <;> simp [same]

@[simp] theorem get?_set (key other : κ) (value : ν) :
    (m.set key value).get? other = if other = key then some value else m.get? other := by
  unfold set get?
  split
  · rename_i present
    exact lookup_replace m.entries key other value present
  · rename_i absent
    rw [lookup_append]
    by_cases same : other = key
    · subst same
      have missing : m.entries.lookup other = none := by
        rw [lookup_eq_none_iff]
        intro entry member
        have distinct : other ≠ entry.1 :=
          fun equal => absent (List.mem_map.mpr ⟨entry, member, equal.symm⟩)
        simpa using distinct
      simp [missing]
    · have differ : (other == key) = false := by simpa using same
      simp [lookup_cons, differ, same]

theorem mem_entries (key : κ) (value : ν) :
    (key, value) ∈ m.entries ↔ m.get? key = some value := by
  obtain ⟨entries, nodup⟩ := m
  change (key, value) ∈ entries ↔ entries.lookup key = some value
  induction entries with
  | nil => simp
  | cons entry entries ih =>
    obtain ⟨head, old⟩ := entry
    simp only [map_cons, nodup_cons] at nodup
    by_cases same : key = head
    · subst same
      have absent : (key, value) ∉ entries :=
        fun member => nodup.1 (List.mem_map.mpr ⟨_, member, rfl⟩)
      simp [absent, eq_comm]
    · have differ : (key == head) = false := by simpa using same
      simp [lookup_cons, differ, same, ih nodup.2]

theorem get?_eq_of_mem {m : InsertionMap κ ν} (member : (key, value) ∈ m.entries) :
    m.get? key = some value := (mem_entries m key value).mp member

theorem get?_of_subset {m n : InsertionMap κ ν} (subset : m.entries ⊆ n.entries) (found : m.get? key = some value)
    : n.get? key = some value :=
  get?_eq_of_mem (subset ((mem_entries m key value).mpr found))

theorem get?_dropOldest {m : InsertionMap κ ν} {count : Nat} (found : (m.dropOldest count).get? key = some value)
    : m.get? key = some value :=
  get?_of_subset (drop_sublist count m.entries).subset found

@[simp] theorem get?_mapValues (f : ν → ν) (key : κ) :
    (m.mapValues f).get? key = (m.get? key).map f := by
  obtain ⟨entries, nodup⟩ := m
  change (entries.map fun entry => (entry.1, f entry.2)).lookup key = (entries.lookup key).map f
  clear nodup
  induction entries with
  | nil => rfl
  | cons entry entries ih =>
    obtain ⟨head, value⟩ := entry
    rw [map_cons, lookup_cons, lookup_cons]
    by_cases same : key = head
    · simp [same]
    · have differ : (key == head) = false := by simpa using same
      simp only [differ, ih]

@[simp] theorem get?_filterValues (keep : ν → Bool) (key : κ) :
    (m.filterValues keep).get? key = (m.get? key).filter keep := by
  apply Option.ext
  intro value
  rw [← mem_entries, Option.filter_eq_some_iff, ← mem_entries]
  change (key, value) ∈ m.entries.filter _ ↔ _
  rw [mem_filter]

theorem mem_keys (key : κ) : key ∈ m.keys ↔ (m.get? key).isSome := by
  constructor
  · intro member
    obtain ⟨⟨_, value⟩, present, rfl⟩ := List.mem_map.mp member
    rw [(mem_entries m _ value).mp present]
    rfl
  · intro present
    obtain ⟨value, found⟩ := Option.isSome_iff_exists.mp present
    exact List.mem_map.mpr ⟨(key, value), (mem_entries m key value).mpr found, rfl⟩

theorem size_delete_le (key : κ) : (m.delete key).size ≤ m.size :=
  length_filter_le _ _

theorem size_delete_lt {m : InsertionMap κ ν} (found : m.get? key = some value) : (m.delete key).size < m.size := by
  apply List.length_filter_lt_length_iff_exists.mpr
  exact ⟨(key, value), (mem_entries m key value).mpr found, by simp⟩

theorem size_set_of_absent {m : InsertionMap κ ν} (absent : m.get? key = none) (value : ν) :
    (m.set key value).size = m.size + 1 := by
  have missing : key ∉ m.entries.map Prod.fst := by
    intro member
    have present := (mem_keys m key).mp member
    rw [absent] at present
    cases present
  unfold set size
  rw [dif_neg missing]
  exact length_append

theorem sum_replace (f : ν → Int) {entries : List (κ × ν)} {old : ν} (value : ν)
    (nodup : (entries.map Prod.fst).Nodup) (member : (key, old) ∈ entries) :
    ((entries.map fun entry => if entry.1 = key then (key, value) else entry).map fun entry => f entry.2).sum =
      (entries.map fun entry => f entry.2).sum - f old + f value := by
  induction entries with
  | nil => cases member
  | cons entry entries ih =>
    simp only [map_cons, nodup_cons] at nodup
    rcases List.mem_cons.mp member with rfl | later
    · -- The key does not occur again, so nothing else is replaced.
      have untouched : (entries.map fun entry => if entry.1 = key then (key, value) else entry) = entries := by
        conv_rhs => rw [← map_id entries]
        apply map_congr_left
        intro entry present
        have distinct : entry.1 ≠ key := fun equal => nodup.1 (List.mem_map.mpr ⟨entry, present, equal⟩)
        simp [distinct]
      simp only [map_cons, if_pos, untouched, sum_cons]
      omega
    · have distinct : entry.1 ≠ key := fun equal => nodup.1 (equal ▸ List.mem_map.mpr ⟨_, later, rfl⟩)
      have rest := ih nodup.2 later
      rw [map_cons, if_neg distinct, map_cons, map_cons, sum_cons, sum_cons, rest]
      omega

theorem sum_set (f : ν → Int) {old : ν} (value : ν) (found : m.get? key = some old) :
    ((m.set key value).entries.map fun entry => f entry.2).sum =
      (m.entries.map fun entry => f entry.2).sum - f old + f value := by
  have member := (mem_entries m key old).mpr found
  have present : key ∈ m.entries.map Prod.fst := List.mem_map.mpr ⟨_, member, rfl⟩
  unfold set
  rw [dif_pos present]
  exact sum_replace f value m.nodup member

end InsertionMap

end Collections
