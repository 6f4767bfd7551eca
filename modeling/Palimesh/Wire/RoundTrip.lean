import Palimesh.Wire.Frame

namespace Palimesh.Wire

open Collections List FrameDecoder SelfDelimiting UInt8

theorem ofCode_code (type : MessageType) : MessageType.ofCode type.code = some type := by
  cases type <;> decide

theorem getUint16_magic : getUint16 (ofNat (wireMagic / 256)) (ofNat wireMagic) = wireMagic := by decide

theorem getUint32_uint32Bytes {n : Nat} (small : n < 4294967296) :
    getUint32 (ofNat (n / 16777216)) (ofNat (n / 65536)) (ofNat (n / 256)) (ofNat n) = n := by
  simp only [getUint32, toNat_ofNat']
  omega

def Sized (frame : WireFrame) : Prop := frame.payload.length ≤ maxPayloadSize

def frameBytes (frame : WireFrame) : Bytes := header frame ++ frame.payload

theorem encodeFrame_sized {frame : WireFrame} (sized : Sized frame) : encodeFrame frame = .ok (frameBytes frame) :=
  if_neg (not_lt.mpr sized)

theorem header_length (frame : WireFrame) : (header frame).length = headerSize := rfl

theorem decodeFrame_header {frame : WireFrame} (sized : Sized frame) (body : Bytes) :
    decodeFrame (header frame ++ body) =
      if body.length < frame.payload.length then .ok none
      else .ok (some ⟨⟨frame.type, body.take frame.payload.length⟩, headerSize + frame.payload.length⟩) := by
  have length : getUint32 _ _ _ _ = frame.payload.length := getUint32_uint32Bytes (by
    have : maxPayloadSize = 16777216 := rfl
    unfold Sized at sized
    omega)
  show decodeFrame (ofNat (wireMagic / 256) :: ofNat wireMagic :: frame.type.code ::
    ofNat (frame.payload.length / 16777216) :: ofNat (frame.payload.length / 65536) ::
    ofNat (frame.payload.length / 256) :: ofNat frame.payload.length :: body) = _
  unfold decodeFrame
  dsimp only
  rw [getUint16_magic, ofCode_code, length]
  simp only [ne_eq, not_true_eq_false, if_false, not_lt.mpr sized]

theorem decodeFrame_short {bytes : Bytes} (short : bytes.length < headerSize) : decodeFrame bytes = .ok none := by
  unfold decodeFrame
  split
  · simp only [length_cons, headerSize] at short
    omega
  · rfl

def nextFrame (bytes : Bytes) : Front WireFrame UInt8 FrameError :=
  match decodeFrame bytes with
  | .error error => .malformed error
  | .ok none => .incomplete
  | .ok (some result) => .item result.frame (bytes.drop result.bytesConsumed)

theorem frames_selfDelimiting : SelfDelimiting frameBytes nextFrame Sized where
  nonempty frame := cons_ne_nil _ _
  empty := rfl
  whole frame rest sized := by
    have body : frameBytes frame ++ rest = header frame ++ (frame.payload ++ rest) := append_assoc _ _ _
    have enough : ¬ (frame.payload ++ rest).length < frame.payload.length := by
      rw [length_append]
      omega
    unfold nextFrame
    rw [body, decodeFrame_header sized, if_neg enough]
    dsimp only
    rw [take_left, ← header_length frame, drop_append]
    simp
  part frame input missing sized cut some_ := by
    unfold nextFrame
    by_cases short : input.length < headerSize
    · rw [decodeFrame_short short]
    · -- The header is complete, so that it is the payload that lacks bytes.
      have kept : header frame ++ frame.payload = input ++ missing := cut
      have begun := prefix_of_prefix_length_le (prefix_append (header frame) frame.payload)
        (kept ▸ prefix_append input missing) (by rw [header_length]; omega)
      obtain ⟨body, rfl⟩ := begun
      rw [append_assoc] at kept
      have payload := append_cancel_left kept
      have lacking : body.length < frame.payload.length := by
        have positive := List.length_pos_iff.mpr some_
        rw [payload, length_append]
        omega
      rw [decodeFrame_header sized, if_pos lacking]

variable {frames : List WireFrame}

namespace FrameDecoder

theorem pending_setBytes {target data : Bytes} {used : Nat} (fits : used ≤ target.length) :
    (setBytes target data used).take (used + data.length) = target.take used ++ data := by
  have length : (target.take used ++ data).length = used + data.length := by
    rw [length_append, length_take]
    omega
  rw [setBytes, ← length, take_left]

theorem take_setBytes_zero (target source : Bytes) : (setBytes target source 0).take source.length = source := by
  rw [setBytes, take_zero, nil_append, take_left]

variable (d : FrameDecoder)

theorem take_reallocate (capacity : Nat) : (d.reallocate capacity).take d.used = d.pending := by
  rw [reallocate, ← d.pending_length]
  exact take_setBytes_zero _ _

theorem take_grow (needed : Nat) : (d.grow needed).take d.used = d.pending := by
  unfold grow
  split
  · exact take_reallocate d _
  · rfl

theorem pending_append (data : Bytes) (bounded : d.used + data.length ≤ d.maxBufferSize) :
    (d.append data bounded).pending = d.pending ++ data := by
  have room := grow_length (Nat.le_add_right d.used data.length) bounded
  show (setBytes (d.grow (d.used + data.length)) data d.used).take (d.used + data.length) = _
  rw [pending_setBytes (by omega), take_grow]

theorem pending_compact (offset : Nat) : (d.compact offset).pending = d.pending.drop offset := by
  unfold compact
  split
  · have length : (d.pending.drop offset).length = d.used - offset := by
      rw [length_drop, pending_length]
    show (setBytes d.buffer (d.pending.drop offset) 0).take (d.used - offset) = _
    rw [← length]
    exact take_setBytes_zero _ _
  · have zero : offset = 0 := by omega
    rw [zero, drop_zero]

theorem pending_shrink : d.shrink.pending = d.pending := by
  unfold shrink
  split
  · exact take_reallocate d _
  · rfl

theorem drain_eq_decodeLoop (bytes : Bytes) (fuel offset : Nat) :
    drain nextFrame fuel (bytes.drop offset) =
      ((decodeLoop bytes fuel offset).1, bytes.drop (decodeLoop bytes fuel offset).2.1,
        (decodeLoop bytes fuel offset).2.2) := by
  induction fuel generalizing offset with
  | zero => rfl
  | succ fuel ih =>
    unfold drain decodeLoop
    by_cases enough : offset + headerSize ≤ bytes.length
    · rw [if_pos enough]
      cases decoded : decodeFrame (bytes.drop offset) with
      | error error =>
        have next : nextFrame (bytes.drop offset) = .malformed error := by rw [nextFrame, decoded]
        rw [next]
      | ok found =>
        cases found with
        | none =>
          have next : nextFrame (bytes.drop offset) = .incomplete := by rw [nextFrame, decoded]
          rw [next]
        | some result =>
          have next : nextFrame (bytes.drop offset) =
              .item result.frame (bytes.drop (offset + result.bytesConsumed)) := by
            rw [nextFrame, decoded, ← drop_drop]
          rw [next]
          dsimp only
          rw [ih (offset + result.bytesConsumed)]
    · have short : (bytes.drop offset).length < headerSize := by
        rw [length_drop]
        unfold headerSize at *
        omega
      have next : nextFrame (bytes.drop offset) = .incomplete := by rw [nextFrame, decodeFrame_short short]
      rw [if_neg enough, next]

/-- A call of `feed` that finds room drains the bytes in hand. -/
theorem feed_drain {d : FrameDecoder} {chunk left : Bytes} {error : Option FrameError}
    (bounded : d.used + chunk.length ≤ d.maxBufferSize)
    (drained : drain nextFrame (d.pending ++ chunk).length (d.pending ++ chunk) = (frames, left, error)) :
    ∃ d', d.feed chunk = (error.elim (.ok frames) .error, d') ∧ d'.pending = left ∧
      d'.maxBufferSize = d.maxBufferSize := by
  have kept : ∀ e : FrameDecoder, ∀ offset, (e.compact offset).maxBufferSize = e.maxBufferSize := by
    intro e offset
    unfold compact
    split <;> rfl
  have loop := drain_eq_decodeLoop (d.append chunk bounded).pending (d.append chunk bounded).pending.length 0
  rw [pending_append, drop_zero, drained, ← pending_append d chunk bounded, pending_length] at loop
  simp only [Prod.mk.injEq] at loop
  rcases loop with ⟨frames_eq, left_eq, error_eq⟩
  unfold feed
  rw [dif_pos bounded]
  dsimp only
  generalize decodeLoop (d.append chunk bounded).pending (d.append chunk bounded).used 0 = result at *
  rcases result with ⟨decoded, offset, stopped⟩
  subst frames_eq left_eq error_eq
  cases error with
  | none =>
    refine ⟨_, rfl, by rw [pending_shrink, pending_compact], ?_⟩
    unfold shrink
    split <;> exact kept _ _
  | some error => exact ⟨_, rfl, pending_compact _ _, kept _ _⟩

theorem feed_stream {d : FrameDecoder} {chunk later tail : Bytes}
    (sized : ∀ frame ∈ frames, Sized frame)
    (stream : d.pending ++ (chunk ++ later) = frames.flatMap frameBytes ++ tail)
    (bounded : d.used + chunk.length ≤ d.maxBufferSize) :
    ∃ ready waiting left, frames = ready ++ waiting ∧ left ++ later = waiting.flatMap frameBytes ++ tail ∧
      Begun frameBytes left waiting ∧
      ∀ error, nextFrame left = .stop error → ∃ d', d.feed chunk = (error.elim (.ok ready) .error, d') ∧
        d'.pending = left ∧ d'.maxBufferSize = d.maxBufferSize := by
  rw [← append_assoc] at stream
  rcases frames_selfDelimiting.drain_stream sized stream le_rfl with
    ⟨ready, waiting, left, split, continues, begun, drained⟩
  exact ⟨ready, waiting, left, split, continues, begun, fun error stopped => feed_drain bounded (drained error stopped)⟩

/-- Each chunk finds room behind the bytes that are left over when it comes. -/
def Fits (d : FrameDecoder) : List Bytes → Prop
  | [] => True
  | chunk :: chunks => d.bufferedBytes + chunk.length ≤ d.maxBufferSize ∧ (d.feed chunk).2.Fits chunks

instance Fits.decidable : ∀ (d : FrameDecoder) (chunks : List Bytes), Decidable (d.Fits chunks)
  | _, [] => .isTrue trivial
  | d, chunk :: chunks =>
    have := Fits.decidable (d.feed chunk).2 chunks
    inferInstanceAs (Decidable (_ ∧ _))

theorem feedAll_stream {d : FrameDecoder} {chunks : List Bytes}
    (sized : ∀ frame ∈ frames, Sized frame) (stream : d.pending ++ chunks.flatten = frames.flatMap frameBytes)
    (begun : Begun frameBytes d.pending frames) (fits : d.Fits chunks) :
    ∃ d', d.feedAll chunks = .ok (frames, d') ∧ d'.bufferedBytes = 0 := by
  induction chunks generalizing d frames with
  | nil =>
    rw [flatten_nil, append_nil] at stream
    have none := nothing_waiting begun stream
    subst none
    have used := d.pending_length
    rw [stream, flatMap_nil, length_nil] at used
    exact ⟨d, rfl, used.symm⟩
  | cons chunk chunks ih =>
    obtain ⟨bounded, later⟩ := fits
    rw [flatten_cons, ← append_nil (frames.flatMap frameBytes)] at stream
    rcases feed_stream sized stream bounded with ⟨ready, waiting, left, rfl, continues, begun, feeds⟩
    have rest : ∀ frame ∈ waiting, Sized frame := fun frame member => sized frame (mem_append_right ready member)
    rw [append_nil] at continues
    have stopped : nextFrame left = .stop none := by
      by_cases none : waiting = []
      · rw [none, flatMap_nil, append_eq_nil_iff] at continues
        rw [continues.1]
        exact frames_selfDelimiting.empty
      · exact begun.incomplete frames_selfDelimiting rest none
    rcases feeds none stopped with ⟨d', fed, rfl, same⟩
    rw [fed] at later
    rcases ih rest continues begun later with ⟨final, fedAll, empty⟩
    apply Exists.intro final
    constructor
    · unfold feedAll
      rw [fed]
      dsimp only [Option.elim_none]
      rw [fedAll]
    · exact empty

end FrameDecoder

theorem encodings_eq {encodings : List Bytes} (sized : ∀ frame ∈ frames, Sized frame)
    (encoded : frames.mapM encodeFrame = .ok encodings) : encodings = frames.map frameBytes := by
  have each : frames.mapM encodeFrame = .ok (frames.map frameBytes) := by
    clear encoded
    induction frames with
    | nil => rfl
    | cons frame frames ih =>
      have head := encodeFrame_sized (sized frame mem_cons_self)
      have tail := ih fun other member => sized other (mem_cons_of_mem _ member)
      rw [mapM_cons, head, tail]
      rfl
  exact Except.ok.inj (encoded.symm.trans each)

/-- Frames survive any chunking of their bytes. -/
theorem frames_survive_chunking (maxBufferSize : Nat) (frames : List WireFrame) (encodings chunks : List Bytes)
    (sized : ∀ frame ∈ frames, frame.payload.length ≤ maxPayloadSize)
    (encoded : frames.mapM encodeFrame = .ok encodings) (split : chunks.flatten = encodings.flatten)
    (fits : (create maxBufferSize).Fits chunks) :
    ∃ d, (create maxBufferSize).feedAll chunks = .ok (frames, d) ∧ d.bufferedBytes = 0 := by
  apply feedAll_stream sized
  · show [] ++ chunks.flatten = _
    rw [nil_append, split, encodings_eq sized encoded, flatMap_def]
  · exact begun_nil frames_selfDelimiting frames
  · exact fits

section Sample

def sampleFrames : List WireFrame := [⟨.ping, []⟩, ⟨.block, [1, 2, 3]⟩, ⟨.pong, []⟩]

def sampleChunks : List Bytes :=
  [[0xC0, 0xC1, 0xF0], [0, 0, 0, 0, 0xC0, 0xC1, 0x10, 0, 0, 0, 3, 1, 2], [3], [0xC0, 0xC1, 0xF1, 0, 0, 0, 0]]

theorem cut_frames_survive :
    (∀ frame ∈ sampleFrames, frame.payload.length ≤ maxPayloadSize) ∧
    (create 16).Fits sampleChunks ∧
    ∃ d, (create 16).feedAll sampleChunks = .ok (sampleFrames, d) ∧ d.bufferedBytes = 0 := by
  have sized : ∀ frame ∈ sampleFrames, frame.payload.length ≤ maxPayloadSize := by decide
  have fits : (create 16).Fits sampleChunks := by decide +kernel
  exact ⟨sized, fits, frames_survive_chunking 16 sampleFrames (sampleFrames.map frameBytes) sampleChunks sized
    (by decide +kernel) (by decide +kernel) fits⟩

end Sample

theorem nextFrame_malformed {start : Bytes} {error : FrameError} (whole : start.length = headerSize)
    (malformed : decodeFrame start = .error error) (body : Bytes) : nextFrame (start ++ body) = .stop (some error) := by
  obtain ⟨m0, m1, rawType, l0, l1, l2, l3, rfl⟩ :
      ∃ m0 m1 rawType l0 l1 l2 l3, start = [m0, m1, rawType, l0, l1, l2, l3] := by
    match start, whole with
    | [m0, m1, rawType, l0, l1, l2, l3], _ => exact ⟨m0, m1, rawType, l0, l1, l2, l3, rfl⟩
  have same : decodeFrame ([m0, m1, rawType, l0, l1, l2, l3] ++ body) = .error error := by
    simp only [decodeFrame, cons_append, nil_append] at malformed ⊢
    by_cases magic : getUint16 m0 m1 ≠ wireMagic
    · rw [if_pos magic] at malformed ⊢
      exact malformed
    · rw [if_neg magic] at malformed ⊢
      cases known : MessageType.ofCode rawType with
      | none =>
        rw [known] at malformed
        exact malformed
      | some type =>
        rw [known] at malformed
        by_cases large : maxPayloadSize < getUint32 l0 l1 l2 l3
        · simp only [if_pos large] at malformed ⊢
          exact malformed
        · simp only [if_neg large] at malformed
          split at malformed <;> cases malformed
  rw [nextFrame, same]
  rfl

/-- The frames that come back from the calls before the first one that throws. -/
def FrameDecoder.handed (d : FrameDecoder) : List Bytes → List WireFrame
  | [] => []
  | chunk :: chunks =>
    match d.feed chunk with
    | (.error _, _) => []
    | (.ok frames, d) => frames ++ d.handed chunks

/-- The frames that so many bytes do not complete, and how many bytes are left over. -/
def settle : List WireFrame → Nat → List WireFrame × Nat
  | [], held => ([], held)
  | frame :: frames, held =>
    if (frameBytes frame).length ≤ held then settle frames (held - (frameBytes frame).length) else (frame :: frames, held)

theorem settle_append (ready waiting : List WireFrame) (held : Nat) :
    settle (ready ++ waiting) ((ready.flatMap frameBytes).length + held) = settle waiting held := by
  induction ready with
  | nil => rw [flatMap_nil, length_nil, zero_add, nil_append]
  | cons frame ready ih =>
    rw [cons_append, flatMap_cons, length_append, settle, if_pos (by omega), ← ih]
    congr 1
    omega

theorem settle_begun {left : Bytes} {waiting : List WireFrame} (begun : Begun frameBytes left waiting) :
    settle waiting left.length = (waiting, left.length) := by
  cases waiting with
  | nil => rfl
  | cons frame waiting =>
    rcases begun with ⟨missing, lacking, cut⟩
    have positive := List.length_pos_iff.mpr lacking
    rw [settle, if_neg (by rw [cut, length_append]; omega)]

/-- As long as a frame is awaited, no chunk overflows the buffer or reaches the end of the header behind the frames. -/
def Separated (maxBufferSize : Nat) : List WireFrame → Nat → List Bytes → Prop
  | frames, _, [] => frames = []
  | frames, held, chunk :: chunks =>
    let reached := held + chunk.length
    frames = [] ∨ reached ≤ maxBufferSize ∧ reached < (frames.flatMap frameBytes).length + headerSize ∧
      Separated maxBufferSize (settle frames reached).1 (settle frames reached).2 chunks

theorem handed_eq_iff {d : FrameDecoder} {start rest : Bytes} {chunks : List Bytes}
    {error : FrameError} (sized : ∀ frame ∈ frames, Sized frame) (whole : start.length = headerSize)
    (malformed : decodeFrame start = .error error)
    (stream : d.pending ++ chunks.flatten = frames.flatMap frameBytes ++ (start ++ rest))
    (begun : Begun frameBytes d.pending frames) :
    d.handed chunks = frames ↔ Separated d.maxBufferSize frames d.used chunks := by
  induction chunks generalizing d frames with
  | nil => exact eq_comm
  | cons chunk chunks ih =>
    rw [flatten_cons] at stream
    unfold handed Separated
    by_cases bounded : d.used + chunk.length ≤ d.maxBufferSize
    · rcases feed_stream sized stream bounded with ⟨ready, waiting, left, rfl, continues, begun, feeds⟩
      have later : ∀ frame ∈ waiting, Sized frame := fun frame member => sized frame (mem_append_right ready member)
      have reached : d.used + chunk.length = (ready.flatMap frameBytes).length + left.length := by
        have before := congrArg length stream
        have after := congrArg length continues
        simp only [length_append, flatMap_append, pending_length] at before after
        omega
      have lengths : ((ready ++ waiting).flatMap frameBytes).length =
          (ready.flatMap frameBytes).length + (waiting.flatMap frameBytes).length := by
        rw [flatMap_append, length_append]
      by_cases past : waiting = [] ∧ headerSize ≤ left.length
      · -- The whole header is in hand: the call throws, and what it had decoded is lost.
        rcases past with ⟨rfl, enough⟩
        have header : start <+: left := prefix_of_prefix_length_le (prefix_append start rest)
          (continues ▸ prefix_append left chunks.flatten) (by omega)
        rcases header with ⟨body, rfl⟩
        rcases feeds _ (nextFrame_malformed whole malformed body) with ⟨d', fed, _⟩
        rw [fed]
        constructor
        · intro none
          exact .inl none.symm
        · rintro (none | ⟨_, short, _⟩)
          · exact none.symm
          · rw [append_nil] at short
            omega
      · have short : left.length < (waiting.flatMap frameBytes).length + headerSize := by
          cases waiting with
          | nil =>
            simp only [true_and] at past
            omega
          | cons frame waiting =>
            rcases begun with ⟨missing, lacking, cut⟩
            simp only [flatMap_cons, cut, length_append, headerSize]
            omega
        have stopped : nextFrame left = .stop none := by
          by_cases none : waiting = []
          · rw [none, flatMap_nil, length_nil, zero_add] at short
            rw [nextFrame, decodeFrame_short short]
            rfl
          · exact begun.incomplete frames_selfDelimiting later none
        rcases feeds none stopped with ⟨d', fed, rfl, same⟩
        rw [fed]
        simp only [Option.elim_none, append_cancel_left_eq]
        rw [ih later continues begun, reached, settle_append, settle_begun begun, ← pending_length, same]
        constructor
        · intro separated
          exact .inr ⟨by omega, by omega, separated⟩
        · rintro (none | ⟨_, _, separated⟩)
          · rw [(append_eq_nil_iff.mp none).2]
            cases chunks with
            | nil => rfl
            | cons chunk chunks => exact .inl rfl
          · exact separated
    · unfold feed
      simp [eq_comm, bounded]

/-- A malformed header spares the frames before it exactly when no call carries it along with the end of a frame. -/
theorem malformed_spares_frames (maxBufferSize : Nat) (frames : List WireFrame) (encodings chunks : List Bytes)
    (start rest : Bytes) (error : FrameError) (sized : ∀ frame ∈ frames, frame.payload.length ≤ maxPayloadSize)
    (encoded : frames.mapM encodeFrame = .ok encodings) (whole : start.length = headerSize)
    (malformed : decodeFrame start = .error error) (split : chunks.flatten = encodings.flatten ++ (start ++ rest)) :
    (create maxBufferSize).handed chunks = frames ↔ Separated maxBufferSize frames 0 chunks := by
  apply handed_eq_iff sized whole malformed
  · show [] ++ chunks.flatten = _
    rw [nil_append, split, encodings_eq sized encoded, flatMap_def]
  · exact begun_nil frames_selfDelimiting frames

section Malformed

def ping : Bytes := [0xC0, 0xC1, 0xF0, 0, 0, 0, 0]

def noMagic : Bytes := [0, 0, 0xF0, 0, 0, 0, 0]

theorem malformed_spares_ping : (create 64).handed [ping, noMagic] = [⟨.ping, []⟩] ∧ Separated 64 [⟨.ping, []⟩] 0 [ping, noMagic] := by
  have spared : (create 64).handed [ping, noMagic] = [⟨.ping, []⟩] := by decide +kernel
  exact ⟨spared, (malformed_spares_frames 64 [⟨.ping, []⟩] [ping] [ping, noMagic] noMagic [] (.invalidMagic 0)
    (by decide) (by decide +kernel) rfl (by decide) rfl).mp spared⟩

theorem malformed_swallows_ping :
    encodeFrame ⟨.ping, []⟩ = .ok ping ∧ decodeFrame noMagic = .error (.invalidMagic 0) ∧
    (create 64).handed [ping ++ noMagic] = [] ∧ (create 64).handed [ping, noMagic] = [⟨.ping, []⟩] := by
  decide +kernel

end Malformed

end Palimesh.Wire
