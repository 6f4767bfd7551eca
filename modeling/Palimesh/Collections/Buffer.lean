import Mathlib

namespace Collections.Buffer

open List

variable {α : Type}

def slice (buffer : List α) (start size : Nat) : List α := (buffer.drop start).take size

def write (buffer : List α) (start : Nat) (bytes : List α) : List α :=
  buffer.take start ++ bytes ++ buffer.drop (start + bytes.length)

theorem getElem?_slice (buffer : List α) (start size i : Nat) :
    (slice buffer start size)[i]? = if i < size then buffer[start + i]? else none := by
  rw [slice, getElem?_take, getElem?_drop]

variable {buffer : List α} {start : Nat}

theorem length_slice {size : Nat} (inside : start + size ≤ buffer.length) :
    (slice buffer start size).length = size := by
  rw [slice, length_take, length_drop]
  omega

variable {bytes : List α}

section

variable (inside : start + bytes.length ≤ buffer.length)
include inside

theorem length_write : (write buffer start bytes).length = buffer.length := by
  simp only [write, length_append, length_take, length_drop]
  omega

theorem getElem?_write (i : Nat) :
    (write buffer start bytes)[i]? =
      if start ≤ i ∧ i < start + bytes.length then bytes[i - start]? else buffer[i]? := by
  have front : (buffer.take start).length = start := by
    rw [length_take]
    omega
  rw [write, append_assoc]
  by_cases before : i < start
  · rw [getElem?_append_left (by omega), getElem?_take, if_pos before, if_neg (by omega)]
  · rw [getElem?_append_right (by omega), front]
    by_cases within : i < start + bytes.length
    · rw [getElem?_append_left (by omega), if_pos (by omega)]
    · rw [getElem?_append_right (by omega), getElem?_drop, if_neg (by omega)]
      apply congrArg (buffer[·]?)
      omega

theorem slice_write_self : slice (write buffer start bytes) start bytes.length = bytes := by
  apply ext_getElem?
  intro i
  rw [getElem?_slice, getElem?_write inside]
  by_cases small : i < bytes.length
  · rw [if_pos small, if_pos (by omega), Nat.add_sub_cancel_left]
  · rw [if_neg small, getElem?_eq_none (by omega)]

theorem slice_write_apart {other size : Nat} (apart : other + size ≤ start ∨ start + bytes.length ≤ other) :
    slice (write buffer start bytes) other size = slice buffer other size := by
  apply ext_getElem?
  intro i
  rw [getElem?_slice, getElem?_slice, getElem?_write inside]
  by_cases small : i < size
  · rw [if_pos small, if_pos small, if_neg (by omega)]
  · rw [if_neg small, if_neg small]

end

theorem write_slice {size : Nat} (inside : start + size ≤ buffer.length) :
    write buffer start (slice buffer start size) = buffer := by
  have width := length_slice inside
  apply ext_getElem?
  intro i
  rw [getElem?_write (by omega), width]
  split
  · rw [getElem?_slice, if_pos (by omega)]
    apply congrArg (buffer[·]?)
    omega
  · rfl

theorem write_write {left right : List α} (inside : start + left.length + right.length ≤ buffer.length) :
    write (write buffer start left) (start + left.length) right = write buffer start (left ++ right) := by
  have first : start + left.length ≤ buffer.length := by omega
  have length := length_write first
  apply ext_getElem?
  intro i
  rw [getElem?_write (by omega), getElem?_write first,
    getElem?_write (by rw [length_append]; omega), length_append, getElem?_append]
  by_cases before : start ≤ i
  · by_cases within : i < start + left.length
    · rw [if_neg (by omega), if_pos ⟨before, within⟩, if_pos (by omega), if_pos (by omega)]
    · by_cases after : i < start + left.length + right.length
      · rw [if_pos (by omega), if_pos (by omega), if_neg (by omega), Nat.sub_sub]
      · rw [if_neg (by omega), if_neg (by omega), if_neg (by omega)]
  · rw [if_neg (by omega), if_neg (by omega), if_neg (by omega)]

theorem write_all (same : bytes.length = buffer.length) : write buffer 0 bytes = bytes := by
  rw [write, Nat.zero_add, same, drop_length, take_zero, nil_append, append_nil]

@[simp] theorem write_nil (buffer : List α) (start : Nat) : write buffer start [] = buffer := by
  simp [write]

@[simp] theorem slice_all (buffer : List α) : slice buffer 0 buffer.length = buffer := by
  simp [slice]

section Slots

variable {count size : Nat}

def slot (size : Nat) (buffer : List α) (i : Nat) : List α := slice buffer (i * size) size

theorem slot_inside {i : Nat} (small : i < count) : i * size + size ≤ count * size := by
  rw [← Nat.succ_mul]
  exact Nat.mul_le_mul_right size small

theorem length_slot (length : buffer.length = count * size) {i : Nat} (small : i < count) :
    (slot size buffer i).length = size :=
  length_slice (length ▸ slot_inside small)

theorem eq_of_slots {left right : List α} (lengthLeft : left.length = count * size)
    (lengthRight : right.length = count * size) (same : ∀ i < count, slot size left i = slot size right i) :
    left = right := by
  apply ext_getElem?
  intro k
  by_cases inside : k < count * size
  · have positive : 0 < size := Nat.pos_of_ne_zero fun zero => by simp [zero] at inside
    have part := congrArg (·[k % size]?) (same (k / size) (Nat.div_lt_of_lt_mul (by rwa [Nat.mul_comm])))
    simp only [slot, getElem?_slice, if_pos (Nat.mod_lt k positive)] at part
    rwa [Nat.div_add_mod'] at part
  · rw [getElem?_eq_none (by omega), getElem?_eq_none (by omega)]

theorem slot_write (length : buffer.length = count * size) (width : bytes.length = size) {i : Nat}
    (small : i < count) (j : Nat) :
    slot size (write buffer (i * size) bytes) j = if j = i then bytes else slot size buffer j := by
  have inside : i * size + bytes.length ≤ buffer.length := by
    rw [width, length]
    exact slot_inside small
  by_cases here : j = i
  · subst here
    rw [if_pos rfl, slot]
    conv => lhs; arg 3; rw [← width]
    exact slice_write_self inside
  · rw [if_neg here, slot, slot, slice_write_apart inside]
    rw [width]
    rcases Nat.lt_or_gt_of_ne here with less | less
    · exact .inl (slot_inside less)
    · exact .inr (slot_inside less)

theorem foldlM_slots {ε σ : Type} {step : σ → Nat → Except ε σ} {pack : List α → σ} {fill : Nat → List α}
    (length : buffer.length = count * size) (widths : ∀ s < count, (fill s).length = size)
    (steps : ∀ before s, before.length = count * size → s < count →
      step (pack before) s = .ok (pack (write before (s * size) (fill s)))) :
    ∃ after, (List.range count).foldlM step (pack buffer) = .ok (pack after) ∧ after.length = count * size ∧
      ∀ s < count, slot size after s = fill s := by
  have start : ∀ k ≤ count, ∃ after, (List.range k).foldlM step (pack buffer) = .ok (pack after) ∧
      after.length = count * size ∧ ∀ s < k, slot size after s = fill s := by
    intro k few
    induction k with
    | zero => exact ⟨buffer, rfl, length, fun _ small => absurd small (Nat.not_lt_zero _)⟩
    | succ k ih =>
      obtain ⟨before, folded, same, filled⟩ := ih (by omega)
      refine ⟨write before (k * size) (fill k), ?_, ?_, fun s small => ?_⟩
      · rw [range_succ, foldlM_append, folded]
        exact congrArg (· >>= pure) (steps before k same few)
      · rw [length_write, same]
        rw [widths k few, same]
        exact slot_inside few
      · rw [slot_write same (widths k few) few]
        split
        · rename_i last
          rw [last]
        · exact filled s (by omega)
  exact start count (Nat.le_refl _)

theorem flatten_slots (length : buffer.length = count * size) :
    ((List.range count).map (slot size buffer)).flatten = buffer := by
  have front : ∀ k, ((List.range k).map (slot size buffer)).flatten = buffer.take (k * size) := by
    intro k
    induction k with
    | zero => simp
    | succ k ih =>
      rw [range_succ, map_append, flatten_append, ih, Nat.succ_mul, take_add]
      simp [slot, slice]
  rw [front, ← length, take_length]

theorem length_flatMap_range {f : Nat → List α} (width : ∀ i, (f i).length = size) (count : Nat) :
    ((List.range count).flatMap f).length = count * size := by
  rw [length_flatMap, map_congr_left fun i _ => width i, map_const', length_range,
    sum_replicate_nat]

theorem slot_flatMap_range {f : Nat → List α} (width : ∀ i, (f i).length = size) {i : Nat} (small : i < count) :
    slot size ((List.range count).flatMap f) i = f i := by
  induction count with
  | zero => cases small
  | succ count ih =>
    have length := length_flatMap_range width count
    rw [range_succ, flatMap_append, flatMap_singleton]
    by_cases last : i = count
    · subst last
      rw [slot, slice, drop_left' length, ← width i, take_length]
    · have less : i < count := by omega
      have inside : i * size + size ≤ ((List.range count).flatMap f).length := length ▸ slot_inside less
      rw [slot, slice, drop_append_of_le_length (by omega),
        take_append_of_le_length (by rw [length_drop]; omega)]
      exact ih less

theorem slot_slot {inner : Nat} (i : Nat) {j : Nat} (small : j < count) :
    slot inner (slot (count * inner) buffer i) j = slice buffer (i * (count * inner) + j * inner) inner := by
  have within : j * inner + inner ≤ count * inner := slot_inside small
  apply ext_getElem?
  intro k
  rw [slot, slot, getElem?_slice, getElem?_slice, getElem?_slice]
  by_cases inside : k < inner
  · rw [if_pos inside, if_pos inside, if_pos (by omega), Nat.add_assoc]
  · rw [if_neg inside, if_neg inside]

end Slots

section Flags

theorem testBit_setFlag (mask flag i : Nat) : (mask ||| 1 <<< flag).testBit i = (mask.testBit i || decide (i = flag)) := by
  rw [Nat.testBit_or, Nat.one_shiftLeft, Nat.testBit_two_pow]
  exact congrArg (mask.testBit i || ·) (decide_eq_decide.mpr eq_comm)

theorem testBit_setFlags (flags : List Nat) (mask i : Nat) :
    (flags.foldl (fun mask flag => mask ||| 1 <<< flag) mask).testBit i = (mask.testBit i || decide (i ∈ flags)) := by
  induction flags generalizing mask with
  | nil => simp
  | cons flag flags ih =>
    rw [foldl_cons, ih, testBit_setFlag, Bool.or_assoc]
    apply congrArg (mask.testBit i || ·)
    rw [← Bool.decide_or]
    exact decide_eq_decide.mpr List.mem_cons.symm

end Flags

end Collections.Buffer
