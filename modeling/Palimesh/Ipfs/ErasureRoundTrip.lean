import Palimesh.Ipfs.Erasure
import Palimesh.Protocol.Guarded

namespace Palimesh.Ipfs

open Collections Protocol.Guarded List Buffer

def shardAt (n shardSize : Nat) (buffer parity : Bytes) (i : Nat) : Bytes :=
  if i < n then Buffer.slot shardSize buffer i else Buffer.slot shardSize parity (i - n)

/-- What is assumed of the library: data has parity such that any `n` of the shards determine the others,
    and exactly the target shards are filled in. -/
structure Context.IsCode (ctx : Context) (n m : Nat) (parityOf : Nat → Bytes → Bytes) : Prop where
  length : ∀ {shardSize : Nat} {data : Bytes}, data.length = n * shardSize →
    (parityOf shardSize data).length = m * shardSize
  fills : ∀ {shardSize sources targets : Nat} {data buffer parity : Bytes}, shardSizeAlignment ∣ shardSize →
    data.length = n * shardSize → buffer.length = n * shardSize → parity.length = m * shardSize →
    n ≤ (List.range (n + m)).countP sources.testBit →
    (∀ i < n + m, sources.testBit i = true → targets.testBit i = false ∧
      shardAt n shardSize buffer parity i = shardAt n shardSize data (parityOf shardSize data) i) →
    ∃ buffer' parity', ctx.encode sources targets buffer parity = .ok (buffer', parity') ∧
      buffer'.length = n * shardSize ∧ parity'.length = m * shardSize ∧
      ∀ i < n + m, shardAt n shardSize buffer' parity' i =
        if targets.testBit i = true then shardAt n shardSize data (parityOf shardSize data) i
        else shardAt n shardSize buffer parity i

variable {params : ErasureParams}

section Bounds

structure Sizes.Valid (sizes : Sizes) : Prop where
  data : 0 < sizes.n
  parity : 0 < sizes.m
  few : sizes.n ≤ maxDataShards
  fewParity : sizes.m ≤ maxParityShards
  aligned : shardSizeAlignment ∣ sizes.shardSize
  positive : 0 < sizes.shardSize
  bounded : sizes.shardSize ≤ maxShardSize

theorem validateParams_ok {sizes : Sizes} (ran : validateParams params = .ok sizes) :
    sizes.Valid ∧ params.n = sizes.n ∧ params.m = sizes.m ∧ params.shardSize.getD defaultShardSize = sizes.shardSize := by
  simp only [validateParams, bind_ok, throwIf_ok, pure_ok] at ran
  obtain ⟨-, first, -, second, -, third, -, fourth, -, fifth, -, sixth, -, seventh, rfl⟩ := ran
  simp only [shardSizeAlignment] at fifth sixth
  refine ⟨⟨?_, ?_, ?_, ?_, ?_, ?_, ?_⟩, ?_, ?_, ?_⟩ <;> simp only [shardSizeAlignment] <;> omega

theorem Sizes.Valid.validates {sizes : Sizes} (valid : sizes.Valid) (originalCid : Option CidString) :
    validateParams ⟨sizes.n, sizes.m, some sizes.shardSize, originalCid⟩ = .ok sizes := by
  obtain ⟨data, parity, few, fewParity, aligned, positive, bounded⟩ := valid
  simp only [shardSizeAlignment] at aligned
  simp only [validateParams, bind_ok, throwIf_ok, pure_ok, Option.getD_some]
  refine ⟨(), ?_, (), ?_, (), ?_, (), ?_, (), ?_, (), ?_, (), ?_, rfl⟩
  · omega
  · omega
  · omega
  · omega
  · simp only [shardSizeAlignment]
    omega
  · simp only [shardSizeAlignment]
    omega
  · omega

end Bounds

variable {i : Nat}

section Shards

variable {n m shardSize : Nat} {buffer parity : Bytes}

theorem shardAt_data (small : i < n) : shardAt n shardSize buffer parity i = Buffer.slot shardSize buffer i :=
  if_pos small

theorem shardAt_parity (j : Nat) : shardAt n shardSize buffer parity (n + j) = Buffer.slot shardSize parity j := by
  rw [shardAt, if_neg (by omega), Nat.add_sub_cancel_left]

theorem testBit_flags (start count i : Nat) : (flags start count).testBit i = decide (start ≤ i ∧ i < start + count) := by
  rw [flags, testBit_setFlags, Nat.zero_testBit, Bool.false_or]
  exact decide_eq_decide.mpr mem_range'_1

theorem count_flags (n m : Nat) : n ≤ (List.range (n + m)).countP (flags 0 n).testBit := by
  have first : (List.range n).countP (flags 0 n).testBit = n := by
    have all : ∀ i ∈ List.range n, (flags 0 n).testBit i = true := by
      intro i member
      rw [testBit_flags]
      exact decide_eq_true ⟨Nat.zero_le i, by rw [Nat.zero_add]; exact List.mem_range.mp member⟩
    rw [List.countP_eq_length.mpr all, length_range]
  rw [range_add, countP_append, first]
  exact Nat.le_add_right _ _

end Shards

section Encode

variable {create : Nat → Nat → Context} {codec : Codec} {sizes : Sizes} {parityOf : Nat → Bytes → Bytes}
  {stripes : Nat} {buffer parity : Bytes}

theorem Sizes.parity_offset (sizes : Sizes) (s : Nat) :
    s * sizes.shardSize * sizes.m = s * (sizes.m * sizes.shardSize) := by
  rw [Nat.mul_assoc, mul_comm sizes.shardSize]

variable (valid : sizes.Valid) (code : (create sizes.n sizes.m).IsCode sizes.n sizes.m parityOf)

include valid code

theorem encodeStripe_eq (lengthData : buffer.length = stripes * sizes.stripeSize)
    (lengthParity : parity.length = stripes * (sizes.m * sizes.shardSize)) {s : Nat} (small : s < stripes) :
    encodeStripe create sizes (buffer, parity) s =
      .ok (buffer, Buffer.write parity (s * (sizes.m * sizes.shardSize))
        (parityOf sizes.shardSize (Buffer.slot sizes.stripeSize buffer s))) := by
  have width : (Buffer.slot sizes.stripeSize buffer s).length = sizes.n * sizes.shardSize :=
    length_slot lengthData small
  have parityWidth : (Buffer.slot (sizes.m * sizes.shardSize) parity s).length = sizes.m * sizes.shardSize :=
    length_slot lengthParity small
  generalize old : Buffer.slot (sizes.m * sizes.shardSize) parity s = shards at parityWidth
  generalize here : Buffer.slot sizes.stripeSize buffer s = stripe at width
  have sources : ∀ i < sizes.n + sizes.m, (flags 0 sizes.n).testBit i = true → (flags sizes.n sizes.m).testBit i = false ∧
      shardAt sizes.n sizes.shardSize stripe shards i =
        shardAt sizes.n sizes.shardSize stripe (parityOf sizes.shardSize stripe) i := by
    intro i _ source
    rw [testBit_flags, decide_eq_true_iff] at source
    rw [shardAt_data (by omega), shardAt_data (by omega), testBit_flags]
    exact ⟨decide_eq_false (by omega), rfl⟩
  obtain ⟨buffer', parity', encoded, length', lengthParity', filled⟩ :=
    code.fills valid.aligned width width parityWidth (count_flags _ _) sources
  have data : buffer' = stripe := by
    apply eq_of_slots length' width
    intro i inside
    have same := filled i (by omega)
    rwa [testBit_flags, if_neg (by simp; omega), shardAt_data inside, shardAt_data inside] at same
  have filledIn : parity' = parityOf sizes.shardSize stripe := by
    apply eq_of_slots lengthParity' (code.length width)
    intro j inside
    have same := filled (sizes.n + j) (by omega)
    rwa [testBit_flags, if_pos (by simp; omega), shardAt_parity, shardAt_parity] at same
  rw [data, filledIn, ← old, ← here] at encoded
  have inside : s * sizes.stripeSize + sizes.stripeSize ≤ buffer.length := lengthData ▸ slot_inside small
  have unchanged := write_slice inside
  unfold Buffer.slot at encoded here
  unfold encodeStripe Context.encodeAt
  rw [Sizes.parity_offset, mul_comm sizes.shardSize sizes.m, encoded, here]
  rw [here] at unchanged
  show Except.ok (Buffer.write buffer _ stripe, _) = _
  rw [unchanged]

end Encode

section Load

theorem flagged_cons {flag mask start : Nat} {result : Option Bytes} {results : List (Option Bytes)} (cond : Option Bytes → Prop)
    (i : Nat) :
    ((mask.testBit i = true ∨ i = flag + start ∧ cond result) ∨
        ∃ j, i = flag + (start + 1 + j) ∧ ∃ other, results[j]? = some other ∧ cond other) ↔
      mask.testBit i = true ∨ ∃ j, i = flag + (start + j) ∧ ∃ other, (result :: results)[j]? = some other ∧ cond other := by
  conv_rhs => rw [← Nat.or_exists_add_one]
  rw [or_assoc]
  simp only [getElem?_cons_zero, getElem?_cons_succ, Nat.add_zero, Option.some.injEq, exists_eq_left', ← Nat.add_assoc,
    Nat.add_right_comm _ 1]

theorem loadShards_ok (shardSize flag : Nat) (mismatch : Nat → Nat → ErasureError) {count start : Nat}
    {results : List (Option Bytes)} {loaded : Loaded} (sized : ∀ shard, some shard ∈ results → shard.length = shardSize)
    (room : loaded.buffer.length = count * shardSize) (fits : start + results.length ≤ count) :
    ∃ loaded', loadShards shardSize flag mismatch start results loaded = .ok loaded' ∧
      loaded'.buffer.length = count * shardSize ∧
      (∀ i < start, Buffer.slot shardSize loaded'.buffer i = Buffer.slot shardSize loaded.buffer i) ∧
      (∀ j shard, results[j]? = some (some shard) → Buffer.slot shardSize loaded'.buffer (start + j) = shard) ∧
      (∀ i, loaded'.present.testBit i = true ↔ loaded.present.testBit i = true ∨
        ∃ j, i = flag + (start + j) ∧ ∃ result, results[j]? = some result ∧ result.isSome = true) ∧
      ∀ i, loaded'.absent.testBit i = true ↔ loaded.absent.testBit i = true ∨
        ∃ j, i = flag + (start + j) ∧ ∃ result, results[j]? = some result ∧ result.isSome = false := by
  induction results generalizing start loaded with
  | nil =>
    refine ⟨loaded, rfl, room, fun _ _ => rfl, by simp, ?_, ?_⟩
    · simp
    · simp
  | cons result results ih =>
    have rest : ∀ shard, some shard ∈ results → shard.length = shardSize :=
      fun shard member => sized shard (mem_cons_of_mem _ member)
    rw [length_cons] at fits
    -- the flag of the first result is set, and the others shift by one
    cases result with
    | none =>
      obtain ⟨loaded', ran, length, before, places, present, absent⟩ := @ih (start + 1)
        { loaded with absent := loaded.absent ||| 1 <<< (flag + start) } rest room (by omega)
      refine ⟨loaded', ran, length, fun i small => before i (by omega), ?_, ?_, ?_⟩
      · intro j shard found
        cases j with
        | zero => cases found
        | succ j =>
          have place := places j shard found
          rwa [Nat.add_right_comm] at place
      · intro i
        rw [present, ← flagged_cons]
        simp
      · intro i
        rw [absent, ← flagged_cons]
        rw [testBit_setFlag]
        simp
    | some shard =>
      have width : shard.length = shardSize := sized shard mem_cons_self
      have inside : start * shardSize + shard.length ≤ loaded.buffer.length := by
        rw [width, room]
        exact slot_inside (by omega)
      obtain ⟨loaded', ran, length, before, places, present, absent⟩ := @ih (start + 1)
        { loaded with
          buffer := Buffer.write loaded.buffer (start * shardSize) shard
          present := loaded.present ||| 1 <<< (flag + start) } rest
        ((length_write inside).trans room) (by omega)
      have written := slot_write room width (by omega : start < count)
      refine ⟨loaded', ?_, length, ?_, ?_, ?_, ?_⟩
      · rw [loadShards, if_neg (not_not.mpr width)]
        exact ran
      · intro i small
        rw [before i (by omega), written, if_neg (by omega)]
      · intro j other found
        cases j with
        | zero =>
          cases found
          rw [add_zero, before start (by omega), written, if_pos rfl]
        | succ j =>
          have place := places j other found
          rwa [Nat.add_right_comm] at place
      · intro i
        rw [present, ← flagged_cons]
        rw [testBit_setFlag]
        simp
      · intro i
        rw [absent, ← flagged_cons]
        simp

end Load

section Decode

variable {create : Nat → Nat → Context} {sizes : Sizes} {parityOf : Nat → Bytes → Bytes} {data out : Bytes}
  {answers : List (Option Bytes)} {s : Nat}

structure Faithful (sizes : Sizes) (parityOf : Nat → Bytes → Bytes) (data : Bytes) (answers : List (Option Bytes)) : Prop where
  width : data.length = sizes.n * sizes.shardSize
  length : answers.length = sizes.n + sizes.m
  intact : ∀ i shard, answers[i]? = some (some shard) →
    shard = shardAt sizes.n sizes.shardSize data (parityOf sizes.shardSize data) i

variable (valid : sizes.Valid) (code : (create sizes.n sizes.m).IsCode sizes.n sizes.m parityOf)
  (faithful : Faithful sizes parityOf data answers)

include code faithful in
theorem Faithful.sized {shard : Bytes} (member : some shard ∈ answers) : shard.length = sizes.shardSize := by
  obtain ⟨i, found⟩ := getElem?_of_mem member
  have small := (List.getElem?_eq_some_iff.mp found).1
  rw [faithful.length] at small
  rw [faithful.intact i shard found]
  by_cases inData : i < sizes.n
  · rw [shardAt_data inData]
    exact length_slot faithful.width inData
  · rw [shardAt, if_neg inData]
    exact length_slot (code.length faithful.width) (by omega)

theorem copyShards_eq {shardSize start : Nat} {mismatch : Nat → Nat → ErasureError} {shards : List Bytes}
    (sized : ∀ shard ∈ shards, shard.length = shardSize) (inside : start + i * shardSize + shards.length * shardSize ≤ out.length) :
    copyShards shardSize start mismatch i shards out = .ok (Buffer.write out (start + i * shardSize) shards.flatten) := by
  induction shards generalizing i out with
  | nil => simp [copyShards]
  | cons shard shards ih =>
    obtain ⟨width, rest⟩ := List.forall_mem_cons.mp sized
    rw [length_cons, Nat.succ_mul] at inside
    have total : shards.flatten.length = shards.length * shardSize := by
      rw [length_flatten, map_congr_left rest, map_const', sum_replicate_nat]
    have length : (Buffer.write out (start + i * shardSize) shard).length = out.length :=
      length_write (by omega)
    rw [copyShards, if_neg (not_not.mpr width), ih rest (by rw [length, Nat.succ_mul]; omega), flatten_cons,
      ← write_write (by omega), Nat.succ_mul, ← add_assoc, width]

include faithful in
theorem Faithful.copied (full : (answers.take sizes.n).all Option.isSome = true) :
    (answers.take sizes.n).reduceOption = (List.range sizes.n).map (Buffer.slot sizes.shardSize data) := by
  have length := faithful.length
  have all : answers.take sizes.n = (List.range sizes.n).map fun i => some (Buffer.slot sizes.shardSize data i) := by
    apply ext_getElem?
    intro i
    rw [getElem?_take, getElem?_map]
    by_cases small : i < sizes.n
    · rw [if_pos small, getElem?_range small]
      have here : i < (answers.take sizes.n).length := by
        rw [length_take]
        omega
      have present := List.all_eq_true.mp full _ (getElem_mem here)
      obtain ⟨shard, found⟩ := Option.isSome_iff_exists.mp present
      have there : answers[i]? = some (some shard) := by
        rw [getElem_take] at found
        rw [getElem?_eq_getElem (by omega), found]
      rw [there, faithful.intact i shard there, shardAt_data small]
      rfl
    · rw [if_neg small, getElem?_eq_none (by simpa using small)]
      rfl
  rw [all, List.reduceOption, filterMap_map]
  exact congrFun filterMap_eq_map _

theorem countP_range_present {mask : Nat} (same : ∀ i, mask.testBit i = true ↔ ∃ shard, answers[i]? = some (some shard)) :
    (List.range answers.length).countP mask.testBit = answers.countP Option.isSome := by
  have read : (List.range answers.length).map (fun i => answers[i]?.getD none) = answers := by
    apply ext_getElem?
    intro i
    rw [getElem?_map]
    by_cases small : i < answers.length
    · rw [getElem?_range small, Option.map_some, getElem?_eq_getElem small, Option.getD_some]
    · rw [getElem?_eq_none (by simpa using small), getElem?_eq_none (by omega), Option.map_none]
  conv => rhs; rw [← read, countP_map]
  apply countP_congr
  intro i member
  rw [same i, Function.comp_apply, getElem?_eq_getElem (List.mem_range.mp member), Option.getD_some,
    Option.isSome_iff_exists]
  simp

theorem getElem?_first (n : Nat) (cond : Option Bytes → Prop) :
    (∃ j, i = 0 + (0 + j) ∧ ∃ result, (answers.take n)[j]? = some result ∧ cond result) ↔
      i < n ∧ ∃ result, answers[i]? = some result ∧ cond result := by
  simp only [zero_add, exists_eq_left', getElem?_take]
  split
  · rename_i small
    rw [and_iff_right small]
  · rename_i large
    simp [large]

theorem getElem?_last (n : Nat) (cond : Option Bytes → Prop) :
    (∃ j, i = n + (0 + j) ∧ ∃ result, (answers.drop n)[j]? = some result ∧ cond result) ↔
      n ≤ i ∧ ∃ result, answers[i]? = some result ∧ cond result := by
  simp only [zero_add, getElem?_drop]
  constructor
  · rintro ⟨j, rfl, found⟩
    exact ⟨Nat.le_add_right _ _, found⟩
  · rintro ⟨large, found⟩
    exact ⟨i - n, by omega, by rw [Nat.add_sub_cancel' large]; exact found⟩

structure Placed (sizes : Sizes) (answers : List (Option Bytes)) (data parity : Loaded) : Prop where
  width : data.buffer.length = sizes.n * sizes.shardSize
  parityWidth : parity.buffer.length = sizes.m * sizes.shardSize
  places : ∀ i shard, answers[i]? = some (some shard) → shardAt sizes.n sizes.shardSize data.buffer parity.buffer i = shard
  present : ∀ i, parity.present.testBit i = true ↔ ∃ shard, answers[i]? = some (some shard)
  absentData : ∀ i, data.absent.testBit i = true ↔ i < sizes.n ∧ answers[i]? = some none
  absentParity : ∀ i, parity.absent.testBit i = true ↔ sizes.n ≤ i ∧ answers[i]? = some none

theorem load_placed (sizes : Sizes) (mismatch mismatchParity : Nat → Nat → ErasureError) (length : answers.length = sizes.n + sizes.m)
    (sized : ∀ shard, some shard ∈ answers → shard.length = sizes.shardSize) :
    ∃ data, loadShards sizes.shardSize 0 mismatch 0 (answers.take sizes.n) ⟨List.replicate sizes.stripeSize 0, 0, 0⟩ = .ok data ∧
      ∃ parity, loadShards sizes.shardSize sizes.n mismatchParity 0 (answers.drop sizes.n)
        ⟨List.replicate (sizes.shardSize * sizes.m) 0, data.present, 0⟩ = .ok parity ∧ Placed sizes answers data parity := by
  have countData : (answers.take sizes.n).length = sizes.n := by
    rw [length_take]
    omega
  have countParity : (answers.drop sizes.n).length = sizes.m := by
    rw [length_drop]
    omega
  have fresh : ∀ present, (⟨List.replicate (sizes.shardSize * sizes.m) 0, present, 0⟩ : Loaded).buffer.length =
      sizes.m * sizes.shardSize := by
    intro present
    rw [length_replicate, mul_comm]
  have empty : (⟨List.replicate sizes.stripeSize 0, 0, 0⟩ : Loaded).buffer.length = sizes.n * sizes.shardSize :=
    length_replicate
  obtain ⟨data, loadedData, width, -, places, present, absent⟩ := loadShards_ok sizes.shardSize 0 mismatch
    (fun shard member => sized shard (mem_of_mem_take member)) empty
    (show 0 + (answers.take sizes.n).length ≤ sizes.n by omega)
  obtain ⟨parity, loadedParity, parityWidth, -, placesParity, presentParity, absentParity⟩ :=
    loadShards_ok sizes.shardSize sizes.n mismatchParity
      (fun shard member => sized shard (mem_of_mem_drop member)) (fresh data.present)
      (show 0 + (answers.drop sizes.n).length ≤ sizes.m by omega)
  refine ⟨data, loadedData, parity, loadedParity, width, parityWidth, ?_, ?_, ?_, ?_⟩
  · intro i shard found
    by_cases small : i < sizes.n
    · obtain ⟨j, rfl, _, there, rfl⟩ := (getElem?_first sizes.n (· = some shard)).mpr ⟨small, _, found, rfl⟩
      rw [shardAt_data small, ← places j shard there, zero_add]
    · obtain ⟨j, rfl, _, there, rfl⟩ := (getElem?_last sizes.n (· = some shard)).mpr ⟨Nat.le_of_not_lt small, _, found, rfl⟩
      rw [shardAt_parity, ← placesParity j shard there]
  · intro i
    rw [presentParity, present, getElem?_first sizes.n (·.isSome = true), getElem?_last sizes.n (·.isSome = true),
      Nat.zero_testBit, Bool.false_eq_true, false_or, ← or_and_right, and_iff_right (Nat.lt_or_ge i sizes.n)]
    simp [Option.isSome_iff_exists]
  · intro i
    rw [absent, getElem?_first sizes.n (·.isSome = false)]
    simp
  · intro i
    rw [absentParity, getElem?_last sizes.n (·.isSome = false)]
    simp

theorem Placed.encodeAt_eq {ctx : Context} {first second : Loaded} (placed : Placed sizes answers first second)
    {sources targets : Nat} {buffer parity : Bytes}
    (encoded : ctx.encode sources targets first.buffer second.buffer = .ok (buffer, parity))
    (width : buffer.length = sizes.n * sizes.shardSize) (parityWidth : parity.length = sizes.m * sizes.shardSize) :
    ctx.encodeAt sources targets first.buffer 0 sizes.stripeSize second.buffer 0 (sizes.shardSize * sizes.m) =
      .ok (buffer, parity) := by
  have whole : Buffer.slice first.buffer 0 sizes.stripeSize = first.buffer := by
    conv => lhs; arg 3; rw [Sizes.stripeSize, ← placed.width]
    exact slice_all _
  have wholeParity : Buffer.slice second.buffer 0 (sizes.shardSize * sizes.m) = second.buffer := by
    conv => lhs; arg 3; rw [mul_comm, ← placed.parityWidth]
    exact slice_all _
  rw [Context.encodeAt, whole, wholeParity, encoded]
  show Except.ok (Buffer.write first.buffer 0 buffer, Buffer.write second.buffer 0 parity) = _
  rw [write_all (width.trans placed.width.symm), write_all (parityWidth.trans placed.parityWidth.symm)]

include valid code faithful

theorem Placed.fills {first second : Loaded} {targets : Nat} (placed : Placed sizes answers first second)
    (enough : sizes.n ≤ answers.countP Option.isSome)
    (absent : ∀ i < sizes.n + sizes.m, targets.testBit i = true → answers[i]? = some none) :
    ∃ buffer parity, (create sizes.n sizes.m).encode second.present targets first.buffer second.buffer = .ok (buffer, parity) ∧
      buffer.length = sizes.n * sizes.shardSize ∧ parity.length = sizes.m * sizes.shardSize ∧
      ∀ i < sizes.n + sizes.m, answers[i]? ≠ some none ∨ targets.testBit i = true →
        shardAt sizes.n sizes.shardSize buffer parity i =
          shardAt sizes.n sizes.shardSize data (parityOf sizes.shardSize data) i := by
  have count := countP_range_present placed.present
  rw [faithful.length] at count
  have intact : ∀ i shard, answers[i]? = some (some shard) → shardAt sizes.n sizes.shardSize first.buffer second.buffer i =
      shardAt sizes.n sizes.shardSize data (parityOf sizes.shardSize data) i := by
    intro i shard found
    rw [placed.places i shard found]
    exact faithful.intact i shard found
  obtain ⟨buffer, parity, encoded, width, parityWidth, filled⟩ :=
    code.fills valid.aligned faithful.width placed.width placed.parityWidth (by rw [count]; exact enough) (by
      intro i small source
      obtain ⟨shard, found⟩ := (placed.present i).mp source
      refine ⟨Bool.eq_false_of_not_eq_true fun target => ?_, intact i shard found⟩
      have gone := absent i small target
      rw [found] at gone
      cases gone)
  refine ⟨buffer, parity, encoded, width, parityWidth, ?_⟩
  intro i small known
  rw [filled i small]
  split
  · rfl
  · rename_i kept
    have there := known.resolve_right kept
    have inside : i < answers.length := by
      rw [faithful.length]
      exact small
    rw [getElem?_eq_getElem inside] at there
    cases found : answers[i] with
    | none => exact absurd (congrArg some found) there
    | some shard => exact intact i shard (by rw [getElem?_eq_getElem inside, found])

omit valid code faithful in
theorem surviving_eq (answers : List (Option Bytes)) (n : Nat) : (answers.take n).countP Option.isSome + (answers.drop n).countP Option.isSome =
    answers.countP Option.isSome := by
  rw [← countP_append, take_append_drop]

omit valid faithful code in
theorem missing_le_iff {answers : List (Option Bytes)} {n m : Nat} (length : answers.length = n + m) :
    answers.countP Option.isNone ≤ m ↔ n ≤ answers.countP Option.isSome := by
  have split := length_eq_countP_add_countP Option.isSome (l := answers)
  have none : answers.countP Option.isNone = answers.countP fun result => decide ¬ result.isSome = true := by
    apply countP_congr
    intro result _
    simp
  omega

omit valid code in
theorem Faithful.missing_le (enough : sizes.n ≤ answers.countP Option.isSome) :
    (answers.take sizes.n).countP Option.isNone ≤ sizes.m :=
  le_trans (take_sublist sizes.n answers).countP_le ((missing_le_iff faithful.length).mpr enough)

theorem reconstruct_ok (enough : sizes.n ≤ answers.countP Option.isSome) :
    reconstruct create sizes s (answers.take sizes.n) (answers.drop sizes.n) = .ok data := by
  obtain ⟨first, loadedData, second, loadedParity, placed⟩ := load_placed sizes
    (fun i size => .dataShardSize i s size sizes.shardSize) (fun j size => .parityShardSize j s size sizes.shardSize)
    faithful.length fun shard member => faithful.sized code member
  obtain ⟨buffer, parity, encoded, width, parityWidth, filled⟩ := placed.fills valid code faithful enough
    fun i _ target => ((placed.absentData i).mp target).2
  have recovered : buffer = data := by
    apply eq_of_slots width faithful.width
    intro i small
    have known : answers[i]? ≠ some none ∨ first.absent.testBit i = true := by
      by_cases gone : answers[i]? = some none
      · exact .inr ((placed.absentData i).mpr ⟨small, gone⟩)
      · exact .inl gone
    have same := filled i (by omega) known
    rwa [shardAt_data small, shardAt_data small] at same
  have surviving := surviving_eq answers sizes.n
  have missing := faithful.missing_le enough
  simp only [reconstruct, bind_ok, throwIf_ok, pure_ok]
  exact ⟨(), by omega, first, loadedData, second, loadedParity, (), by omega, _,
    placed.encodeAt_eq encoded width parityWidth, recovered⟩

structure Answered (sizes : Sizes) (fetchShard : Nat → CidString → Option Bytes) (stripe : ErasureStripe) (s : Nat)
    (answers : List (Option Bytes)) : Prop where
  shape : stripe.data.length = sizes.n ∧ stripe.parity.length = sizes.m
  data : (stripe.data.zipIdx.map fun shard => fetchShard (s * (sizes.n + sizes.m) + shard.2) shard.1) = answers.take sizes.n
  parity : (stripe.parity.zipIdx.map fun shard => fetchShard (s * (sizes.n + sizes.m) + sizes.n + shard.2) shard.1) =
    answers.drop sizes.n

variable {fetchShard : Nat → CidString → Option Bytes} {stripe : ErasureStripe}

omit valid faithful code in
theorem Answered.decodeStripe_eq (answered : Answered sizes fetchShard stripe s answers) :
    decodeStripe create sizes fetchShard out (stripe, s) =
      if (answers.take sizes.n).all Option.isSome = true then
        copyShards sizes.shardSize (s * sizes.stripeSize) (fun i size => .dataShardSize i s size sizes.shardSize) 0
          (answers.take sizes.n).reduceOption out
      else (reconstruct create sizes s (answers.take sizes.n) (answers.drop sizes.n)).map
        (Buffer.write out (s * sizes.stripeSize)) := by
  have shape : ¬ (stripe.data.length ≠ sizes.n ∨ stripe.parity.length ≠ sizes.m) := by
    rintro (wrong | wrong)
    · exact wrong answered.shape.1
    · exact wrong answered.shape.2
  unfold decodeStripe
  dsimp only
  rw [throwIf, if_neg shape, answered.data, answered.parity]
  rfl

theorem decodeStripe_ok (answered : Answered sizes fetchShard stripe s answers)
    (inside : s * sizes.stripeSize + sizes.stripeSize ≤ out.length)
    (recoverable : (answers.take sizes.n).all Option.isSome = true ∨ sizes.n ≤ answers.countP Option.isSome) :
    decodeStripe create sizes fetchShard out (stripe, s) = .ok (Buffer.write out (s * sizes.stripeSize) data) := by
  rw [answered.decodeStripe_eq]
  by_cases full : (answers.take sizes.n).all Option.isSome = true
  · have shards : ∀ shard ∈ (List.range sizes.n).map (Buffer.slot sizes.shardSize data), shard.length = sizes.shardSize := by
      intro shard member
      obtain ⟨i, small, rfl⟩ := List.mem_map.mp member
      exact length_slot faithful.width (List.mem_range.mp small)
    have room : s * sizes.stripeSize + 0 * sizes.shardSize +
        ((List.range sizes.n).map (Buffer.slot sizes.shardSize data)).length * sizes.shardSize ≤ out.length := by
      rw [length_map, length_range, zero_mul, add_zero]
      exact inside
    rw [if_pos full, faithful.copied full, copyShards_eq shards room, flatten_slots faithful.width, zero_mul,
      add_zero]
  · rw [if_neg full, reconstruct_ok valid code faithful (recoverable.resolve_left full)]
    rfl

omit valid faithful code in
theorem decodeStripe_error (answered : Answered sizes fetchShard stripe s answers)
    (lacks : none ∈ answers.take sizes.n) (few : answers.countP Option.isSome < sizes.n)
    : ∃ error, decodeStripe create sizes fetchShard out (stripe, s) = .error error := by
  have gap : ¬ (answers.take sizes.n).all Option.isSome = true := fun full => by
    have there := List.all_eq_true.mp full none lacks
    cases there
  have surviving := surviving_eq answers sizes.n
  rw [answered.decodeStripe_eq, if_neg gap, reconstruct, throwIf, if_pos (by omega)]
  exact ⟨_, rfl⟩

end Decode

section Files

variable {create : Nat → Nat → Context} {codec : Codec} {sizes : Sizes} {parityOf : Nat → Bytes → Bytes}

def answers (fetchShard : Nat → CidString → Option Bytes) (blocks : List IpfsBlock) (width s : Nat) : List (Option Bytes) :=
  ((Buffer.slot width blocks s).zipIdx (s * width)).map fun block => fetchShard block.2 block.1.cid

theorem length_dataShards (sizes : Sizes) (buffer : Bytes) (s : Nat) : (dataShards sizes buffer s).length = sizes.n := by
  rw [dataShards, length_map, length_range]

theorem length_parityShards (sizes : Sizes) (parity : Bytes) (s : Nat) : (parityShards sizes parity s).length = sizes.m := by
  rw [parityShards, length_map, length_range]

theorem getElem?_shards (sizes : Sizes) (buffer parity : Bytes) (s : Nat) (small : i < sizes.n + sizes.m) :
    (dataShards sizes buffer s ++ parityShards sizes parity s)[i]? =
      some (shardAt sizes.n sizes.shardSize (Buffer.slot sizes.stripeSize buffer s)
        (Buffer.slot (sizes.m * sizes.shardSize) parity s) i) := by
  have length := length_dataShards sizes buffer s
  by_cases inData : i < sizes.n
  · rw [getElem?_append_left (by omega), dataShards, getElem?_map, getElem?_range inData, shardAt_data inData,
      Sizes.stripeSize, slot_slot s inData]
    rfl
  · obtain ⟨j, rfl⟩ := Nat.exists_eq_add_of_le (Nat.le_of_not_lt inData)
    have inParity : j < sizes.m := by omega
    rw [getElem?_append_right (by omega), length, Nat.add_sub_cancel_left, parityShards, getElem?_map,
      getElem?_range inParity, shardAt_parity, slot_slot s inParity, Sizes.parity_offset]
    rfl

structure Encoded (sizes : Sizes) (parityOf : Nat → Bytes → Bytes) (codec : Codec) (file : Bytes) (stripes : Nat)
    (buffer parity : Bytes) (result : EncodeResult) : Prop where
  length : buffer.length = stripes * sizes.stripeSize
  start : buffer.take file.length = file
  covered : file.length ≤ stripes * sizes.stripeSize
  coded : ∀ s < stripes, Buffer.slot (sizes.m * sizes.shardSize) parity s =
    parityOf sizes.shardSize (Buffer.slot sizes.stripeSize buffer s)
  blocks : result.shardBlocks = (List.range stripes).flatMap fun s =>
    (dataShards sizes buffer s ++ parityShards sizes parity s).map fun bytes => ⟨codec.rawCid bytes, bytes⟩
  stripes : result.manifest.stripes = (List.range stripes).map fun s =>
    ⟨(dataShards sizes buffer s).map codec.rawCid, (parityShards sizes parity s).map codec.rawCid⟩
  header : result.manifest.v = 1 ∧ result.manifest.scheme = "rs" ∧ result.manifest.n = sizes.n ∧
    result.manifest.m = sizes.m ∧ result.manifest.shardSize = sizes.shardSize ∧ result.manifest.fileSize = file.length

theorem Sizes.Valid.stripeSize_pos (valid : sizes.Valid) : 0 < sizes.stripeSize := Nat.mul_pos valid.data valid.positive

theorem covered_stripeCount (valid : sizes.Valid) (fileSize : Nat) :
    fileSize ≤ stripeCount sizes fileSize * sizes.stripeSize := by
  have positive := valid.stripeSize_pos
  have division := Nat.lt_mul_div_succ (fileSize + sizes.stripeSize - 1) positive
  have most : (fileSize + sizes.stripeSize - 1) / sizes.stripeSize * sizes.stripeSize ≤
      stripeCount sizes fileSize * sizes.stripeSize := Nat.mul_le_mul_right _ (Nat.le_max_right _ _)
  rw [Nat.mul_succ, mul_comm] at division
  omega

theorem encodeFile_ok (accepted : validateParams params = .ok sizes)
    (code : (create sizes.n sizes.m).IsCode sizes.n sizes.m parityOf) (codec : Codec) (file : Bytes) :
    ∃ buffer parity result, encodeFile create codec file params = .ok result ∧
      Encoded sizes parityOf codec file (stripeCount sizes file.length) buffer parity result := by
  have valid := (validateParams_ok accepted).1
  have covered := covered_stripeCount valid file.length
  have room : 0 + file.length ≤ (List.replicate (stripeCount sizes file.length * sizes.stripeSize) (0 : UInt8)).length := by
    rw [length_replicate]
    omega
  have length := length_write room
  have start := slice_write_self room
  rw [length_replicate] at length
  have parityLength : (List.replicate (sizes.shardSize * sizes.m * stripeCount sizes file.length) (0 : UInt8)).length =
      stripeCount sizes file.length * (sizes.m * sizes.shardSize) := by
    rw [length_replicate, mul_comm, mul_comm sizes.shardSize]
  obtain ⟨parity, encoded, -, holds⟩ := foldlM_slots parityLength
    (fun _ small => code.length (length_slot length small)) fun _ _ lengthParity small =>
      encodeStripe_eq valid code length lengthParity small
  unfold encodeFile
  rw [accepted]
  dsimp only [bind, Except.bind]
  rw [encoded]
  refine ⟨Buffer.write (List.replicate (stripeCount sizes file.length * sizes.stripeSize) 0) 0 file, parity, _, rfl, ?_⟩
  exact ⟨length, start, covered, holds, rfl, rfl, rfl, rfl, rfl, rfl, rfl, rfl⟩

section Run

variable {file buffer parity : Bytes} {stripes : Nat} {result : EncodeResult} {fetchShard : Nat → CidString → Option Bytes}
  (encoded : Encoded sizes parityOf codec file stripes buffer parity result)

def IntactOrMissing (fetchShard : Nat → CidString → Option Bytes) (blocks : List IpfsBlock) : Prop :=
  ∀ k block, blocks[k]? = some block → fetchShard k block.cid = none ∨ fetchShard k block.cid = some block.bytes

include encoded

theorem Encoded.slot_blocks {s : Nat} (small : s < stripes) : Buffer.slot (sizes.n + sizes.m) result.shardBlocks s =
    (dataShards sizes buffer s ++ parityShards sizes parity s).map fun bytes => ⟨codec.rawCid bytes, bytes⟩ := by
  rw [encoded.blocks]
  apply slot_flatMap_range _ small
  intro i
  rw [length_map, length_append, length_dataShards, length_parityShards]

theorem Encoded.length_answers {s : Nat} (small : s < stripes) :
    (answers fetchShard result.shardBlocks (sizes.n + sizes.m) s).length = sizes.n + sizes.m := by
  rw [answers, encoded.slot_blocks small, length_map, length_zipIdx, length_map, length_append,
    length_dataShards, length_parityShards]

theorem Encoded.faithful (intact : IntactOrMissing fetchShard result.shardBlocks) {s : Nat} (small : s < stripes) :
    Faithful sizes parityOf (Buffer.slot sizes.stripeSize buffer s)
      (answers fetchShard result.shardBlocks (sizes.n + sizes.m) s) where
  width := length_slot encoded.length small
  length := encoded.length_answers small
  intact := by
    intro i shard found
    have inside := (List.getElem?_eq_some_iff.mp found).1
    rw [encoded.length_answers small] at inside
    have block : result.shardBlocks[s * (sizes.n + sizes.m) + i]? =
        some ⟨codec.rawCid (shardAt sizes.n sizes.shardSize (Buffer.slot sizes.stripeSize buffer s)
          (parityOf sizes.shardSize (Buffer.slot sizes.stripeSize buffer s)) i),
          shardAt sizes.n sizes.shardSize (Buffer.slot sizes.stripeSize buffer s)
          (parityOf sizes.shardSize (Buffer.slot sizes.stripeSize buffer s)) i⟩ := by
      have slot := congrArg (·[i]?) (encoded.slot_blocks small)
      simp only [Buffer.slot, getElem?_slice, if_pos inside] at slot
      rw [slot, getElem?_map, getElem?_shards sizes buffer parity s inside, encoded.coded s small]
      rfl
    rw [answers, encoded.slot_blocks small, getElem?_map, getElem?_zipIdx, getElem?_map,
      getElem?_shards sizes buffer parity s inside, encoded.coded s small] at found
    have asked := Option.some.inj found
    rcases intact _ _ block with gone | there
    · cases gone.symm.trans asked
    · exact (Option.some.inj (there.symm.trans asked)).symm

omit encoded in
theorem map_zipIdx_cids (codec : Codec) (start : Nat) (shards : List Bytes) :
    ((shards.map codec.rawCid).zipIdx.map fun shard => fetchShard (start + shard.2) shard.1) =
      ((shards.map fun bytes => (⟨codec.rawCid bytes, bytes⟩ : IpfsBlock)).zipIdx start).map fun block =>
        fetchShard block.2 block.1.cid := by
  apply ext_getElem?
  intro i
  simp [getElem?_zipIdx, Function.comp_def]

theorem Encoded.answered {s : Nat} (small : s < stripes) : Answered sizes fetchShard
    ⟨(dataShards sizes buffer s).map codec.rawCid, (parityShards sizes parity s).map codec.rawCid⟩ s
    (answers fetchShard result.shardBlocks (sizes.n + sizes.m) s) where
  shape := by
    rw [length_map, length_map]
    exact ⟨length_dataShards _ _ _, length_parityShards _ _ _⟩
  data := by
    rw [map_zipIdx_cids, answers, encoded.slot_blocks small, map_append, zipIdx_append, map_append]
    exact (take_left' (by simp [length_dataShards])).symm
  parity := by
    rw [map_zipIdx_cids, answers, encoded.slot_blocks small, map_append, zipIdx_append, map_append, length_map,
      length_dataShards]
    exact (drop_left' (by simp [length_dataShards])).symm

theorem Encoded.zipIdx_stripes : result.manifest.stripes.zipIdx = (List.range stripes).map fun s =>
    (⟨(dataShards sizes buffer s).map codec.rawCid, (parityShards sizes parity s).map codec.rawCid⟩, s) := by
  rw [encoded.stripes, zipIdx_map, zipIdx_eq_zip_range', length_range, ← range_eq_range', zip_eq_zipWith, zipWith_self,
    map_map]
  rfl

theorem Encoded.length_stripes : result.manifest.stripes.length = stripes := by
  rw [encoded.stripes, length_map, length_range]

omit encoded in
theorem foldlM_ok_mem {ε α β : Type} {step : β → α → Except ε β} {xs : List α} {init final : β}
    (ran : xs.foldlM step init = .ok final) {x : α} (member : x ∈ xs) : ∃ before after, step before x = .ok after := by
  induction xs generalizing init with
  | nil => cases member
  | cons y ys ih =>
    rw [foldlM_cons, bind_ok] at ran
    obtain ⟨next, first, rest⟩ := ran
    rcases List.mem_cons.mp member with rfl | later
    · exact ⟨init, next, first⟩
    · exact ih rest later

theorem Encoded.decodeFile_eq (valid : sizes.Valid) (few : stripes ≤ maxStripes)
    (small : stripes * sizes.stripeSize ≤ maxErasureFileSize) :
    decodeFile create result.manifest fetchShard = (do
      let out ← (List.range stripes).foldlM (fun out s => decodeStripe create sizes fetchShard out
        (⟨(dataShards sizes buffer s).map codec.rawCid, (parityShards sizes parity s).map codec.rawCid⟩, s))
        (List.replicate (stripes * sizes.stripeSize) 0)
      throwIf (out.length < (file.length : Int)) (.fileSize file.length out.length)
      return subarrayTo out file.length) := by
  obtain ⟨v, scheme, n, m, shardSize, fileSize⟩ := encoded.header
  have supported : ¬ (result.manifest.v ≠ 1 ∨ result.manifest.scheme ≠ "rs") := by simp [v, scheme]
  unfold decodeFile
  rw [throwIf, if_neg supported, n, m, shardSize, fileSize, valid.validates, encoded.length_stripes, encoded.zipIdx_stripes]
  dsimp only [bind, Except.bind]
  rw [throwIf, if_neg (by omega), throwIf, if_neg (by omega), foldlM_map]

end Run

/-- An encoded file is decoded to its own bytes if each stripe lacks at most `m` shards, and not at all when a
    stripe that lacks data has fewer than `n` left. -/
theorem erasure_survives {params : ErasureParams} (accepted : validateParams params = .ok sizes)
    (code : (create sizes.n sizes.m).IsCode sizes.n sizes.m parityOf) (codec : Codec) (file : Bytes)
    (few : stripeCount sizes file.length ≤ maxStripes)
    (small : stripeCount sizes file.length * sizes.stripeSize ≤ maxErasureFileSize) :
    ∃ result, encodeFile create codec file params = .ok result ∧ ∀ fetchShard,
      (IntactOrMissing fetchShard result.shardBlocks →
        (∀ s < result.manifest.stripes.length,
          (answers fetchShard result.shardBlocks (sizes.n + sizes.m) s).countP Option.isNone ≤ sizes.m) →
        decodeFile create result.manifest fetchShard = .ok file) ∧
      ((∃ s < result.manifest.stripes.length,
          none ∈ (answers fetchShard result.shardBlocks (sizes.n + sizes.m) s).take sizes.n ∧
          (answers fetchShard result.shardBlocks (sizes.n + sizes.m) s).countP Option.isSome < sizes.n) →
        ∃ error, decodeFile create result.manifest fetchShard = .error error) := by
  have valid := (validateParams_ok accepted).1
  obtain ⟨buffer, parity, result, ran, encoded⟩ := encodeFile_ok accepted code codec file
  refine ⟨result, ran, fun fetchShard => ⟨fun intact missing => ?_, ?_⟩⟩
  · rw [encoded.length_stripes] at missing
    obtain ⟨out, folded, length, copied⟩ := @foldlM_slots _ _ _ _ _ _ _ (fun out => out) _ length_replicate
      (fun _ inside => length_slot encoded.length inside) fun before s width inside =>
        decodeStripe_ok valid code (encoded.faithful intact inside) (encoded.answered inside) (width ▸ slot_inside inside)
          (.inr ((missing_le_iff (encoded.length_answers inside)).mp (missing s inside)))
    have whole : out = buffer := eq_of_slots length encoded.length copied
    have covered := encoded.covered
    rw [encoded.decodeFile_eq valid few small]
    refine bind_ok.mpr ⟨out, folded, bind_ok.mpr ⟨(), throwIf_ok.mpr (by omega), pure_ok.mpr ?_⟩⟩
    rw [whole, subarrayTo, if_neg (by omega), Int.toNat_natCast]
    exact encoded.start
  · rintro ⟨s, inside, lacks, left⟩
    rw [encoded.length_stripes] at inside
    cases decoded : decodeFile create result.manifest fetchShard with
    | error error => exact ⟨error, rfl⟩
    | ok bytes =>
      rw [encoded.decodeFile_eq valid few small] at decoded
      obtain ⟨out, folded, -⟩ := bind_ok.mp decoded
      obtain ⟨before, after, step⟩ := foldlM_ok_mem folded (List.mem_range.mpr inside)
      obtain ⟨error, failed⟩ : ∃ error, decodeStripe create sizes fetchShard before (_, s) = .error error :=
        decodeStripe_error (encoded.answered inside) lacks left
      rw [failed] at step
      cases step

end Files

section Mirror

def mirror : Context where
  encode sources targets buffer parity :=
    let whole := if sources.testBit 0 then buffer else parity
    .ok (if targets.testBit 0 then whole else buffer, if targets.testBit 1 then whole else parity)

theorem slot_whole {size : Nat} {buffer : Bytes} (length : buffer.length = 1 * size) : Buffer.slot size buffer 0 = buffer := by
  rw [Buffer.slot, zero_mul, ← one_mul size, ← length, slice_all]

theorem mirror_isCode : mirror.IsCode 1 1 fun _ data => data where
  length := id
  fills := by
    intro shardSize sources targets data buffer parity aligned lengthData lengthBuffer lengthParity enough sound
    have first := sound 0 (by omega)
    have second := sound 1 (by omega)
    simp only [shardAt, Nat.zero_lt_one, if_true, lt_irrefl, if_false, Nat.sub_self, slot_whole lengthData,
      slot_whole lengthBuffer, slot_whole lengthParity] at first second
    have whole : (if sources.testBit 0 then buffer else parity) = data := by
      by_cases source : sources.testBit 0 = true
      · rw [if_pos source, (first source).2]
      · have other : sources.testBit 1 = true := by
          by_contra none
          simp [range_succ, source, none] at enough
        rw [if_neg source, (second other).2]
    have length : ∀ target : Bool, ∀ bytes : Bytes, bytes.length = 1 * shardSize →
        (if target then data else bytes).length = 1 * shardSize := by
      intro target bytes width
      cases target
      · exact width
      · exact lengthData
    refine ⟨_, _, rfl, ?_, ?_, ?_⟩
    · rw [whole]
      exact length _ _ lengthBuffer
    · rw [whole]
      exact length _ _ lengthParity
    · intro i small
      rw [whole]
      rcases (show i = 0 ∨ i = 1 by omega) with rfl | rfl
      · simp only [shardAt, Nat.zero_lt_one, if_true, slot_whole lengthData, slot_whole lengthBuffer,
          slot_whole (length _ _ lengthBuffer)]
      · simp only [shardAt, lt_irrefl, if_false, Nat.sub_self, slot_whole lengthData, slot_whole lengthParity,
          slot_whole (length _ _ lengthParity)]

def plainCodec : Codec := ⟨List.map fun byte => Char.ofNat byte.toNat, fun _ => ['m'], fun _ => []⟩

def keepParity (k : Nat) (cid : CidString) : Option Bytes :=
  if k % 2 = 0 then none else some (cid.map fun c => UInt8.ofNat c.toNat)

def sampleFile : Bytes := List.range 20 |>.map UInt8.ofNat

theorem mirrored_survives : ∃ result, encodeFile (fun _ _ => mirror) plainCodec sampleFile ⟨1, 1, some 8, none⟩ = .ok result ∧
    result.manifest.stripes.length = 3 ∧
    decodeFile (fun _ _ => mirror) result.manifest keepParity = .ok sampleFile ∧
    ∃ error, decodeFile (fun _ _ => mirror) result.manifest (fun _ _ => none) = .error error := by
  obtain ⟨result, ran, holds⟩ := @erasure_survives (fun _ _ => mirror) ⟨1, 1, 8⟩ (fun _ data => data) ⟨1, 1, some 8, none⟩
    (by decide) mirror_isCode plainCodec sampleFile (by decide) (by decide)
  obtain ⟨same, evaluated, count, missing, intact, lost⟩ : ∃ result,
      encodeFile (fun _ _ => mirror) plainCodec sampleFile ⟨1, 1, some 8, none⟩ = .ok result ∧
      result.manifest.stripes.length = 3 ∧
      (∀ s < 3, (answers keepParity result.shardBlocks 2 s).countP Option.isNone ≤ 1) ∧
      (∀ block ∈ result.shardBlocks.zipIdx, keepParity block.2 block.1.cid = none ∨
        keepParity block.2 block.1.cid = some block.1.bytes) ∧
      answers (fun _ _ => none) result.shardBlocks 2 0 = [none, none] := by decide +kernel
  cases Except.ok.inj (ran.symm.trans evaluated)
  refine ⟨result, ran, count, (holds keepParity).1 ?_ ?_, (holds _).2 ⟨0, by omega, ?_, ?_⟩⟩
  · intro k block found
    exact intact (block, k) (List.mem_zipIdx_iff_getElem?.mpr found)
  · rw [count]
    exact missing
  · show none ∈ (answers _ _ 2 0).take 1
    rw [lost]
    exact mem_cons_self
  · show (answers _ _ 2 0).countP _ < 1
    rw [lost]
    exact Nat.zero_lt_one

end Mirror

end Palimesh.Ipfs
