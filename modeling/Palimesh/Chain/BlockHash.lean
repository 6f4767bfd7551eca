import Palimesh.Chain.Validation
import Palimesh.Collections.DelimitedText

namespace Palimesh.Chain

open Collections List

def HexText (text : String) : Prop :=
  ∃ digits, text.toList = '0' :: 'x' :: digits ∧ ∀ c ∈ digits, c ∈ "0123456789abcdefABCDEF".toList

theorem HexText.notMem {text : String} (hex : HexText text) {mark : Char} (other : mark ∉ "0x123456789abcdefABCDEF".toList) :
    mark ∉ text.toList := by
  rcases hex with ⟨digits, shape, all⟩
  intro member
  rw [shape] at member
  have digit := all mark
  simp at digit other member
  tauto

section Txs

variable {txs : List String} (hex : ∀ tx ∈ txs, HexText tx)
include hex

theorem bar_notMem_joined : '|' ∉ [','].intercalate (txs.map String.toList) := by
  induction txs with
  | nil => simp
  | cons tx rest ih =>
    rcases forall_mem_cons.mp hex with ⟨first, others⟩
    have bar := first.notMem (by decide : '|' ∉ _)
    cases rest with
    | nil => simpa using bar
    | cons next rest => simpa [intercalate_cons_cons, bar] using ih others

/-- The list is read back from its text. -/
theorem pieces_joined :
    (splitOn ',' ([','].intercalate (txs.map String.toList))).filter (· ≠ []) = txs.map String.toList := by
  cases txs with
  | nil => rfl
  | cons tx rest =>
    rw [splitOn_intercalate ',' _ (by simp)]
    · apply filter_eq_self.mpr
      intro text member
      rcases mem_map.mp member with ⟨tx, there, rfl⟩
      rcases hex tx there with ⟨digits, shape, -⟩
      simp [shape]
    · intro text member
      rcases mem_map.mp member with ⟨tx, there, rfl⟩
      exact (hex tx there).notMem (by decide)

end Txs

/-- Blocks of the same payload text, whose hashes agree whatever the hash function is, agree in every field of it. -/
theorem hashBlockPayload_unambiguous {a b : ChainBlock} (plain : ∀ block ∈ [a, b], '|' ∉ block.parentHash.toList ∧
      '|' ∉ block.proposer.toList ∧ ∀ tx ∈ block.txs, HexText tx)
    (same : ∀ host, hashBlockPayload host a = hashBlockPayload host b) :
    a.number = b.number ∧ a.parentHash = b.parentHash ∧ a.proposer = b.proposer ∧ a.timestampMs = b.timestampMs ∧
      a.txs = b.txs ∧ a.baseFee.getD 0 = b.baseFee.getD 0 ∧ a.cumulativeWeight.getD 0 = b.cumulativeWeight.getD 0 ∧
      a.blobGasUsed.getD 0 = b.blobGasUsed.getD 0 ∧ a.excessBlobGas.getD 0 = b.excessBlobGas.getD 0 ∧
      a.parentBeaconBlockRoot.getD "" = b.parentBeaconBlockRoot.getD "" := by
  have texts := congrArg String.toList (same ⟨id, fun _ _ => true, fun _ => none, fun _ => .ok [], id⟩)
  have int (n : Int) : '|' ∉ (toString n).toList := notMem_int (by decide) (by decide) n
  have value {n n' : Int} (read : (toString n).toList = (toString n').toList) : n = n' :=
    Int.repr_inj.mp (String.toList_injective read)
  simp only [forall_mem_cons] at plain
  rcases plain with ⟨⟨parentA, proposerA, hexA⟩, ⟨parentB, proposerB, hexB⟩, -⟩
  have bar : "|".toList = ['|'] := by decide
  have comma : ",".toList = [','] := by decide
  simp only [hashBlockPayload, String.toList_append, String.toList_intercalate, bar, comma, id, append_cancel_left_eq,
    map_cons, map_nil, intercalate_cons_cons, intercalate_singleton, append_assoc, singleton_append] at texts
  rcases split_at_first (int _) (int _) texts with ⟨number, texts⟩
  rcases split_at_first parentA parentB texts with ⟨parentHash, texts⟩
  rcases split_at_first proposerA proposerB texts with ⟨proposer, texts⟩
  rcases split_at_first (int _) (int _) texts with ⟨timestampMs, texts⟩
  rcases split_at_first (bar_notMem_joined hexA) (bar_notMem_joined hexB) texts with ⟨joined, texts⟩
  rcases split_at_first (int _) (int _) texts with ⟨baseFee, texts⟩
  rcases split_at_first (int _) (int _) texts with ⟨cumulativeWeight, texts⟩
  rcases split_at_first (int _) (int _) texts with ⟨blobGasUsed, texts⟩
  rcases split_at_first (int _) (int _) texts with ⟨excessBlobGas, root⟩
  have txs := pieces_joined hexA
  rw [joined, pieces_joined hexB] at txs
  have text : Function.Injective String.toList := fun _ _ => String.toList_injective
  exact ⟨value number, text parentHash, text proposer, value timestampMs, (map_injective_iff.mpr text txs).symm,
    value baseFee, value cumulativeWeight, value blobGasUsed, value excessBlobGas, text root⟩

def rootedBlock (parentHash : Hex) (proposer : String) (timestampMs : Int) (parentBeaconBlockRoot : Hex) : ChainBlock :=
  { number := 1, hash := "", parentHash, proposer, timestampMs, txs := [], finalized := false, parentBeaconBlockRoot }

theorem hashBlockPayload_unambiguous_fee : let a := { rootedBlock "p" "q" 1 "|" with txs := ["0xab"] }
    let b := { a with baseFee := some 0 }
    a.baseFee ≠ b.baseFee ∧ a.baseFee.getD 0 = b.baseFee.getD 0 := by
  refine ⟨by decide, (hashBlockPayload_unambiguous ?_ fun _ => rfl).2.2.2.2.2.1⟩
  have hex : ∀ tx ∈ ["0xab"], HexText tx := by
    rw [forall_mem_singleton]
    exact ⟨['a', 'b'], by decide, by simp⟩
  simp [rootedBlock, hex]

/-- With a bar in the parent's hash, the fields shift. -/
theorem barred_parent_shifts : let a := rootedBlock "p" "q" 1 "|0|0|0|0|"
    let b := rootedBlock "p|q|1||0|0" "0" 0 ""
    (∀ host, hashBlockPayload host a = hashBlockPayload host b) ∧ '|' ∉ a.proposer.toList ∧ '|' ∉ b.proposer.toList ∧
      a.txs = [] ∧ b.txs = [] ∧ a.parentHash ≠ b.parentHash ∧ a.proposer ≠ b.proposer :=
  ⟨fun host => congrArg (fun text => "0x" ++ host.keccak256Hex text) (by decide), by decide⟩

end Palimesh.Chain
