import Mathlib

namespace Collections

open List

abbrev FiniteMap (κ ν : Type) := Finmap fun _ : κ => ν

theorem erase_of_notMem {κ ν : Type} [DecidableEq κ] {m : FiniteMap κ ν} {key : κ} (absent : key ∉ m) :
    m.erase key = m := by
  apply Finmap.ext_lookup
  intro other
  by_cases hit : other = key
  · subst hit
    rw [Finmap.lookup_erase, Finmap.lookup_eq_none.mpr absent]
  · rw [Finmap.lookup_erase_ne hit]

/-- Every finite map has a root, and the root determines the map. -/
structure ContentHash (κ ν ρ : Type) where
  hash : FiniteMap κ ν → ρ
  injective : Function.Injective hash

structure CheckpointFrame (κ ν ρ : Type) where
  savedRoot : ρ
  nodes : List (FiniteMap κ ν)

/-- A content-addressed map over a node store, with its open checkpoints, the innermost first. -/
structure CheckpointTrie (κ ν ρ : Type) where
  root : ρ
  frames : List (CheckpointFrame κ ν ρ)

namespace CheckpointTrie

variable {κ ν ρ : Type} {H : ContentHash κ ν ρ} {t : CheckpointTrie κ ν ρ} {store store' : List (FiniteMap κ ν)}
  {root : ρ} {c d : FiniteMap κ ν} {frames frames' : List (CheckpointFrame κ ν ρ)}
  {levels : List (FiniteMap κ ν)}

def visible (frames : List (CheckpointFrame κ ν ρ)) (store : List (FiniteMap κ ν)) : List (FiniteMap κ ν) :=
  frames.flatMap CheckpointFrame.nodes ++ store

def Stored (frames : List (CheckpointFrame κ ν ρ)) (store : List (FiniteMap κ ν)) (c : FiniteMap κ ν) : Prop :=
  c = ∅ ∨ c ∈ visible frames store

theorem Stored.mono (stored : Stored frames store c) (more : visible frames store ⊆ visible frames' store') :
    Stored frames' store' c :=
  stored.imp_right fun present => more present

theorem visible_mono (frames : List (CheckpointFrame κ ν ρ)) (more : store ⊆ store') :
    visible frames store ⊆ visible frames store' :=
  List.append_subset.mpr ⟨subset_append_left _ _, subset_append_of_subset_right _ more⟩

/-- The trie stands for this stack of maps: the current one, then one for each open checkpoint. -/
def Represents (H : ContentHash κ ν ρ) (store : List (FiniteMap κ ν)) :
    ρ → List (CheckpointFrame κ ν ρ) → List (FiniteMap κ ν) → Prop
  | root, [], [c] => H.hash c = root ∧ Stored ([] : List (CheckpointFrame κ ν ρ)) store c
  | root, top :: outer, c :: levels =>
    H.hash c = root ∧ Stored (top :: outer) store c ∧ Represents H store top.savedRoot outer levels
  | _, _, _ => False

theorem Represents.cons (rep : Represents H store root frames (c :: levels)) :
    H.hash c = root ∧ Stored frames store c := by
  cases frames with
  | nil =>
    cases levels with
    | nil => exact rep
    | cons d levels => exact rep.elim
  | cons top outer => exact ⟨rep.1, rep.2.1⟩

theorem Represents.nonempty (rep : Represents H store root frames levels) : ∃ c rest, levels = c :: rest := by
  cases levels with
  | nil => cases frames <;> exact rep.elim
  | cons c rest => exact ⟨c, rest, rfl⟩

theorem Represents.single (rep : Represents H store root [] levels) : ∃ c, levels = [c] := by
  obtain ⟨c, rest, rfl⟩ := rep.nonempty
  cases rest with
  | nil => exact ⟨c, rfl⟩
  | cons d rest => exact rep.elim

theorem Represents.length (rep : Represents H store root frames levels) : levels.length = frames.length + 1 := by
  induction frames generalizing root levels with
  | nil =>
    obtain ⟨c, rfl⟩ := rep.single
    rfl
  | cons top outer ih =>
    obtain ⟨c, rest, rfl⟩ := rep.nonempty
    simp [ih rep.2.2]

theorem Represents.grow (rep : Represents H store root frames levels) (more : store ⊆ store') :
    Represents H store' root frames levels := by
  induction frames generalizing root levels with
  | nil =>
    obtain ⟨c, rfl⟩ := rep.single
    exact ⟨rep.1, rep.2.mono (visible_mono _ more)⟩
  | cons top outer ih =>
    obtain ⟨c, rest, rfl⟩ := rep.nonempty
    exact ⟨rep.1, rep.2.1.mono (visible_mono _ more), ih rep.2.2⟩

def checkpoint (t : CheckpointTrie κ ν ρ) : CheckpointTrie κ ν ρ := { t with frames := ⟨t.root, []⟩ :: t.frames }

def revert (t : CheckpointTrie κ ν ρ) : CheckpointTrie κ ν ρ :=
  match t.frames with
  | [] => t
  | top :: outer => ⟨top.savedRoot, outer⟩

theorem Represents.checkpoint (rep : Represents H store t.root t.frames (c :: levels)) :
    Represents H store t.checkpoint.root t.checkpoint.frames (c :: c :: levels) :=
  ⟨rep.cons.1, rep.cons.2.mono (by simp [visible]), rep⟩

theorem Represents.revert (rep : Represents H store t.root t.frames (c :: d :: levels)) :
    Represents H store t.revert.root t.revert.frames (d :: levels) := by
  unfold CheckpointTrie.revert
  cases open' : t.frames with
  | nil =>
    rw [open'] at rep
    exact rep.elim
  | cons top outer =>
    rw [open'] at rep
    exact rep.2.2

def bottom : ρ → List (CheckpointFrame κ ν ρ) → ρ
  | root, [] => root
  | _, top :: outer => bottom top.savedRoot outer

@[simp] theorem bottom_revert : bottom t.revert.root t.revert.frames = bottom t.root t.frames := by
  unfold revert
  split
  · rfl
  · rename_i open'
    rw [open']
    rfl

@[simp] theorem checkpoint_depth : t.checkpoint.frames.length = t.frames.length + 1 := rfl

@[simp] theorem revert_depth : t.revert.frames.length = t.frames.length - 1 := by
  unfold revert
  split
  · rename_i closed
    rw [closed]
    rfl
  · rename_i open'
    rw [open']
    rfl

variable [DecidableEq κ] [DecidableEq ν]

section

variable (t : CheckpointTrie κ ν ρ) (store : List (FiniteMap κ ν))

variable (H) in
def write (contents : FiniteMap κ ν) : CheckpointTrie κ ν ρ × List (FiniteMap κ ν) :=
  match t.frames with
  | [] => (⟨H.hash contents, []⟩, store.insert contents)
  | top :: outer => (⟨H.hash contents, { top with nodes := top.nodes.insert contents } :: outer⟩, store)

def commit : CheckpointTrie κ ν ρ × List (FiniteMap κ ν) :=
  match t.frames with
  | [] => (t, store)
  | [last] => ({ t with frames := [] }, last.nodes ∪ store)
  | top :: next :: outer => ({ t with frames := { next with nodes := top.nodes ∪ next.nodes } :: outer }, store)

theorem store_subset_write (c : FiniteMap κ ν) : store ⊆ (write H t store c).2 := by
  unfold write
  split
  · exact fun _ member => mem_insert_of_mem member
  · exact List.Subset.refl _

theorem store_subset_commit : store ⊆ (t.commit store).2 := by
  unfold commit
  split
  · exact List.Subset.refl _
  · exact fun _ member => List.mem_union_iff.mpr (.inr member)
  · exact List.Subset.refl _

theorem commit_trie (store store' : List (FiniteMap κ ν)) : (t.commit store).1 = (t.commit store').1 := by
  unfold commit
  split <;> rfl

@[simp] theorem write_depth (c : FiniteMap κ ν) : (write H t store c).1.frames.length = t.frames.length := by
  unfold write
  split
  · rename_i closed
    rw [closed]
  · rename_i open'
    rw [open']
    rfl

end

theorem bottom_write (store : List (FiniteMap κ ν)) (c : FiniteMap κ ν) (open' : t.frames ≠ []) :
    bottom (write H t store c).1.root (write H t store c).1.frames = bottom t.root t.frames := by
  unfold write
  split
  · rename_i closed
    exact absurd closed open'
  · rename_i frames
    rw [frames]
    rfl

@[simp] theorem commit_depth (t : CheckpointTrie κ ν ρ) (store : List (FiniteMap κ ν)) :
    (t.commit store).1.frames.length = t.frames.length - 1 := by
  unfold commit
  split <;> simp [*]

theorem bottom_commit (store : List (FiniteMap κ ν)) (nested : 2 ≤ t.frames.length) :
    bottom (t.commit store).1.root (t.commit store).1.frames = bottom t.root t.frames := by
  unfold commit
  split
  · rfl
  · rename_i last frames
    rw [frames] at nested
    simp at nested
  · rename_i frames
    rw [frames]
    rfl

theorem Represents.write (rep : Represents H store t.root t.frames (c :: levels)) :
    Represents H (write H t store d).2 (write H t store d).1.root (write H t store d).1.frames (d :: levels) := by
  unfold CheckpointTrie.write
  cases open' : t.frames with
  | nil =>
    rw [open'] at rep
    cases levels with
    | nil => exact ⟨rfl, .inr (by simp [visible])⟩
    | cons e levels => exact rep.elim
  | cons top outer =>
    rw [open'] at rep
    exact ⟨rfl, .inr (by simp [visible]), rep.2.2⟩

theorem visible_commit (top next : CheckpointFrame κ ν ρ) (outer : List (CheckpointFrame κ ν ρ))
    (store : List (FiniteMap κ ν)) :
    visible (top :: next :: outer) store ⊆
      visible ({ next with nodes := top.nodes ∪ next.nodes } :: outer) store := by
  intro c member
  simp only [visible, flatMap_cons, mem_append, mem_union_iff] at member ⊢
  tauto

theorem Represents.commit (rep : Represents H store t.root t.frames (c :: d :: levels)) :
    Represents H (t.commit store).2 (t.commit store).1.root (t.commit store).1.frames (c :: levels) := by
  unfold CheckpointTrie.commit
  cases open' : t.frames with
  | nil =>
    rw [open'] at rep
    exact rep.elim
  | cons top outer =>
    rw [open'] at rep
    obtain ⟨hash, stored, below⟩ := rep
    cases outer with
    | nil =>
      cases levels with
      | nil =>
        refine ⟨hash, stored.mono ?_⟩
        intro e member
        simpa [visible] using member
      | cons e levels => exact below.elim
    | cons next outer =>
      refine ⟨hash, stored.mono (visible_commit top next outer store), below.2.2⟩

variable [DecidableEq ρ]

instance : DecidableEq (CheckpointFrame κ ν ρ) := fun a b =>
  decidable_of_iff (a.savedRoot = b.savedRoot ∧ a.nodes = b.nodes) (by cases a; cases b; simp)

instance : DecidableEq (CheckpointTrie κ ν ρ) := fun a b =>
  decidable_of_iff (a.root = b.root ∧ a.frames = b.frames) (by cases a; cases b; simp)

variable (H)

/-- The map a root stands for; a root whose nodes are gone reads as the empty map. -/
def resolve (frames : List (CheckpointFrame κ ν ρ)) (store : List (FiniteMap κ ν)) (root : ρ) : FiniteMap κ ν :=
  ((visible frames store).find? fun contents => H.hash contents = root).getD ∅

def contents (t : CheckpointTrie κ ν ρ) (store : List (FiniteMap κ ν)) : FiniteMap κ ν :=
  resolve H t.frames store t.root

def put (t : CheckpointTrie κ ν ρ) (store : List (FiniteMap κ ν)) (key : κ) (value : ν) :
    CheckpointTrie κ ν ρ × List (FiniteMap κ ν) :=
  write H t store ((contents H t store).insert key value)

def del (t : CheckpointTrie κ ν ρ) (store : List (FiniteMap κ ν)) (key : κ) :
    CheckpointTrie κ ν ρ × List (FiniteMap κ ν) :=
  if key ∈ contents H t store then write H t store ((contents H t store).erase key) else (t, store)

def snapshots (store : List (FiniteMap κ ν)) : ρ → List (CheckpointFrame κ ν ρ) → List (FiniteMap κ ν)
  | root, [] => [resolve H [] store root]
  | root, top :: outer => resolve H (top :: outer) store root :: snapshots store top.savedRoot outer

variable {H}

omit [DecidableEq κ] [DecidableEq ν] in
theorem resolve_hash (stored : Stored frames store c) : resolve H frames store (H.hash c) = c := by
  unfold resolve
  cases found : (visible frames store).find? fun contents => H.hash contents = H.hash c with
  | some other =>
    have same := find?_some found
    simp only [decide_eq_true_eq] at same
    exact H.injective same
  | none =>
    rcases stored with empty | present
    · exact empty.symm
    · have missing := List.find?_eq_none.mp found c present
      simp at missing

omit [DecidableEq κ] [DecidableEq ν] in
theorem Represents.resolve (rep : Represents H store root frames (c :: levels)) :
    resolve H frames store root = c := by
  obtain ⟨hash, stored⟩ := rep.cons
  rw [← hash]
  exact resolve_hash stored

omit [DecidableEq κ] [DecidableEq ν] in
theorem Represents.snapshots (rep : Represents H store root frames levels) :
    snapshots H store root frames = levels := by
  induction frames generalizing root levels with
  | nil =>
    obtain ⟨c, rfl⟩ := rep.single
    rw [CheckpointTrie.snapshots, rep.resolve]
  | cons top outer ih =>
    obtain ⟨c, rest, rfl⟩ := rep.nonempty
    rw [CheckpointTrie.snapshots, rep.resolve, ih rep.2.2]

variable (rep : Represents H store t.root t.frames (c :: levels))
include rep

theorem Represents.put (key : κ) (value : ν) :
    Represents H (put H t store key value).2 (put H t store key value).1.root (put H t store key value).1.frames
      (c.insert key value :: levels) := by
  unfold CheckpointTrie.put contents
  rw [rep.resolve]
  exact rep.write

theorem Represents.del (key : κ) :
    Represents H (del H t store key).2 (del H t store key).1.root (del H t store key).1.frames
      (c.erase key :: levels) := by
  unfold CheckpointTrie.del contents
  rw [rep.resolve]
  split
  · exact rep.write
  · rename_i absent
    rw [erase_of_notMem absent]
    exact rep

end CheckpointTrie

end Collections
