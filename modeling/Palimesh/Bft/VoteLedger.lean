import Palimesh.Chain.Block
import Palimesh.Collections.InsertionMap

namespace Palimesh.Bft

open Collections InsertionMap

abbrev HashAt := InsertionMap Int Hex

structure VoteLedgerSnapshot where
  prepared : HashAt
  committed : HashAt
deriving DecidableEq

def VoteLedgerSnapshot.empty : VoteLedgerSnapshot := ⟨.empty, .empty⟩

/-- Keys that a JavaScript object enumerates first and in ascending order. -/
def arrayIndex (key : Int) : Bool := 0 ≤ key && key < 4294967295

def objectOrder (entries : List (Int × Hex)) : List (Int × Hex) :=
  (entries.filter fun entry => arrayIndex entry.1).insertionSort (fun a b => a.1 ≤ b.1) ++
    entries.filter fun entry => !arrayIndex entry.1

theorem objectOrder_perm (entries : List (Int × Hex)) : (objectOrder entries).Perm entries :=
  ((List.perm_insertionSort _ _).append_right _).trans (List.filter_append_perm _ _)

def throughObject (m : HashAt) : HashAt :=
  ⟨objectOrder m.entries, ((objectOrder_perm m.entries).map Prod.fst).nodup_iff.mpr m.nodup⟩

@[simp] theorem get?_throughObject (m : HashAt) (height : Int) :
    (throughObject m).get? height = m.get? height := by
  apply Option.ext
  intro hash
  rw [← mem_entries, ← mem_entries]
  exact (objectOrder_perm m.entries).mem_iff

/-- `durable` tells whether the ledger has a file; without one it lives in memory only. -/
structure BftVoteLedger where
  prepared : HashAt
  committed : HashAt
  durable : Bool
deriving DecidableEq

namespace BftVoteLedger

def load (snapshot : VoteLedgerSnapshot) (durable : Bool) : BftVoteLedger :=
  if durable then ⟨throughObject snapshot.prepared, throughObject snapshot.committed, durable⟩
  else ⟨.empty, .empty, durable⟩

variable (ledger : BftVoteLedger)

def snapshot : VoteLedgerSnapshot := ⟨ledger.prepared, ledger.committed⟩

def flush : Option VoteLedgerSnapshot :=
  if ledger.durable then some ledger.snapshot else none

variable (height : Int)

def recordPrepared (blockHash : Hex) : BftVoteLedger × Option VoteLedgerSnapshot :=
  if ledger.prepared.get? height = some blockHash then (ledger, none)
  else
    let ledger := { ledger with prepared := ledger.prepared.set height blockHash }
    (ledger, ledger.flush)

def recordCommitted (blockHash : Hex) : BftVoteLedger × Option VoteLedgerSnapshot :=
  if ledger.committed.get? height = some blockHash then (ledger, none)
  else
    let ledger := { ledger with committed := ledger.committed.set height blockHash }
    (ledger, ledger.flush)

def above (m : HashAt) (height : Int) : HashAt := m.filterKeys fun key => height < key

def reachesDown : Bool :=
  ledger.prepared.keys.any (· ≤ height) || ledger.committed.keys.any (· ≤ height)

def dropThrough : BftVoteLedger :=
  { ledger with
    prepared := above ledger.prepared height
    committed := above ledger.committed height }

def prune (finalizedHeight : Int) : BftVoteLedger × Option VoteLedgerSnapshot :=
  if ledger.reachesDown finalizedHeight then
    (ledger.dropThrough finalizedHeight, (ledger.dropThrough finalizedHeight).flush)
  else (ledger, none)

def clearAll : BftVoteLedger × Option VoteLedgerSnapshot :=
  if ledger.prepared.size = 0 ∧ ledger.committed.size = 0 then (ledger, none)
  else
    let ledger := { ledger with prepared := .empty, committed := .empty }
    (ledger, ledger.flush)

theorem get?_above (m : HashAt) (height key : Int) :
    (above m height).get? key = if height < key then m.get? key else none := by
  simp [above]

theorem recordPrepared_get? (height key : Int) (blockHash : Hex) :
    (ledger.recordPrepared height blockHash).1.prepared.get? key =
      if key = height then some blockHash else ledger.prepared.get? key := by
  unfold recordPrepared
  split
  · rename_i present
    by_cases same : key = height
    · simp [same, present]
    · simp [same]
  · simp

theorem recordCommitted_get? (height key : Int) (blockHash : Hex) :
    (ledger.recordCommitted height blockHash).1.committed.get? key =
      if key = height then some blockHash else ledger.committed.get? key := by
  unfold recordCommitted
  split
  · rename_i present
    by_cases same : key = height
    · simp [same, present]
    · simp [same]
  · simp

theorem get?_none_of_unchanged {m : HashAt} {height key : Int}
    (unchanged : m.keys.any (· ≤ height) = false) (below : key ≤ height) : m.get? key = none := by
  by_contra present
  have member : key ∈ m.keys := (mem_keys m key).mpr (Option.isSome_iff_ne_none.mpr present)
  have fresh := List.any_eq_false.mp unchanged key member
  simp [below] at fresh

theorem prune_get? (height key : Int) :
    (ledger.prune height).1.prepared.get? key =
        (if height < key then ledger.prepared.get? key else none) ∧
      (ledger.prune height).1.committed.get? key =
        (if height < key then ledger.committed.get? key else none) := by
  by_cases changed : ledger.reachesDown height
  · rw [prune, if_pos changed]
    exact ⟨get?_above _ _ _, get?_above _ _ _⟩
  · rw [prune, if_neg changed]
    simp only [reachesDown, Bool.or_eq_true, not_or, Bool.not_eq_true] at changed
    by_cases beyond : height < key
    · simp [beyond]
    · have below : key ≤ height := by omega
      simp [beyond, get?_none_of_unchanged changed.1 below, get?_none_of_unchanged changed.2 below]

end BftVoteLedger

end Palimesh.Bft
