import Palimesh.Collections.StreamDecoder

namespace Palimesh.Wire

open Collections List

abbrev Bytes := List UInt8

inductive MessageType
  | handshake
  | handshakeAck
  | block
  | transaction
  | blockRequest
  | blockResponse
  | providerAdvertise
  | snapshot
  | snapshotRequest
  | bftPrepare
  | bftCommit
  | findNode
  | findNodeResponse
  | ping
  | pong
deriving DecidableEq, Repr

namespace MessageType

def code : MessageType → UInt8
  | .handshake => 0x01
  | .handshakeAck => 0x02
  | .block => 0x10
  | .transaction => 0x11
  | .blockRequest => 0x12
  | .blockResponse => 0x13
  | .providerAdvertise => 0x14
  | .snapshot => 0x20
  | .snapshotRequest => 0x21
  | .bftPrepare => 0x30
  | .bftCommit => 0x31
  | .findNode => 0x40
  | .findNodeResponse => 0x41
  | .ping => 0xF0
  | .pong => 0xF1

def all : List MessageType :=
  [.handshake, .handshakeAck, .block, .transaction, .blockRequest, .blockResponse, .providerAdvertise, .snapshot,
    .snapshotRequest, .bftPrepare, .bftCommit, .findNode, .findNodeResponse, .ping, .pong]

def ofCode (rawType : UInt8) : Option MessageType := all.find? fun type => type.code = rawType

end MessageType

structure WireFrame where
  type : MessageType
  payload : Bytes
deriving DecidableEq

def wireMagic : Nat := 0xC0C1

def headerSize : Nat := 7

def maxPayloadSize : Nat := 16 * 1024 * 1024

inductive FrameError
  | payloadTooLarge (payloadLen : Nat)
  | invalidMagic (magic : Nat)
  | unknownType (rawType : UInt8)
  | sizeExceedsMax (payloadLen : Nat)
  | bufferOverflow (needed maxBufferSize : Nat)
deriving DecidableEq

def hexText (n : Nat) : String := String.ofList (Nat.toDigits 16 n)

def FrameError.message : FrameError → String
  | .payloadTooLarge payloadLen => "payload exceeds max size: " ++ toString payloadLen ++ " > " ++ toString maxPayloadSize
  | .invalidMagic magic => "invalid wire magic: 0x" ++ hexText magic
  | .unknownType rawType => "unknown wire message type: 0x" ++ hexText rawType.toNat
  | .sizeExceedsMax payloadLen => "payload size exceeds max: " ++ toString payloadLen
  | .bufferOverflow needed maxBufferSize =>
    "FrameDecoder buffer overflow: " ++ toString needed ++ " > " ++ toString maxBufferSize

def uint16Bytes (n : Nat) : Bytes := [UInt8.ofNat (n / 256), UInt8.ofNat n]

def uint32Bytes (n : Nat) : Bytes :=
  [UInt8.ofNat (n / 16777216), UInt8.ofNat (n / 65536), UInt8.ofNat (n / 256), UInt8.ofNat n]

def getUint16 (b0 b1 : UInt8) : Nat := b0.toNat * 256 + b1.toNat

def getUint32 (b0 b1 b2 b3 : UInt8) : Nat :=
  b0.toNat * 16777216 + b1.toNat * 65536 + b2.toNat * 256 + b3.toNat

def header (frame : WireFrame) : Bytes := uint16Bytes wireMagic ++ [frame.type.code] ++ uint32Bytes frame.payload.length

def encodeFrame (frame : WireFrame) : Except FrameError Bytes :=
  if maxPayloadSize < frame.payload.length then .error (.payloadTooLarge frame.payload.length)
  else .ok (header frame ++ frame.payload)

structure Decoded where
  frame : WireFrame
  bytesConsumed : Nat
deriving DecidableEq

def decodeFrame (buf : Bytes) : Except FrameError (Option Decoded) :=
  match buf with
  | m0 :: m1 :: rawType :: l0 :: l1 :: l2 :: l3 :: body =>
    let magic := getUint16 m0 m1
    if magic ≠ wireMagic then .error (.invalidMagic magic)
    else match MessageType.ofCode rawType with
      | none => .error (.unknownType rawType)
      | some type =>
        let payloadLen := getUint32 l0 l1 l2 l3
        if maxPayloadSize < payloadLen then .error (.sizeExceedsMax payloadLen)
        else if body.length < payloadLen then .ok none
        else .ok (some ⟨⟨type, body.take payloadLen⟩, headerSize + payloadLen⟩)
  | _ => .ok none

/-- The accumulator of a connection: the first `used` bytes of the buffer have not been decoded yet. -/
structure FrameDecoder where
  buffer : Bytes
  used : Nat
  maxBufferSize : Nat
  within : used ≤ buffer.length

namespace FrameDecoder

def create (maxBufferSize : Nat) : FrameDecoder := ⟨[], 0, maxBufferSize, Nat.le_refl 0⟩

section

variable (d : FrameDecoder)

def bufferedBytes : Nat := d.used

def pending : Bytes := d.buffer.take d.used

def setBytes (target : Bytes) (source : Bytes) (offset : Nat) : Bytes :=
  target.take offset ++ source ++ target.drop (offset + source.length)

theorem setBytes_length {target source : Bytes} {offset : Nat} (fits : offset + source.length ≤ target.length) :
    (setBytes target source offset).length = target.length := by
  simp only [setBytes, length_append, length_take, length_drop]
  omega

theorem pending_length : d.pending.length = d.used := by
  have := d.within
  simp only [pending, length_take]
  omega

def reallocate (capacity : Nat) : Bytes := setBytes (List.replicate capacity 0) d.pending 0

theorem reallocate_length {d : FrameDecoder} {capacity : Nat} (fits : d.used ≤ capacity) :
    (d.reallocate capacity).length = capacity := by
  have length := d.pending_length
  rw [reallocate, setBytes_length]
  · exact length_replicate
  · rw [length_replicate]
    omega

def newCap (needed : Nat) : Nat :=
  min (max needed (max (d.buffer.length * 2) 4096)) d.maxBufferSize

def grow (needed : Nat) : Bytes :=
  if d.buffer.length < needed then d.reallocate (d.newCap needed) else d.buffer

theorem grow_length {d : FrameDecoder} {needed : Nat} (used : d.used ≤ needed) (bounded : needed ≤ d.maxBufferSize) :
    needed ≤ (d.grow needed).length := by
  have room : needed ≤ d.newCap needed := by
    unfold newCap
    omega
  unfold grow
  split
  · rw [reallocate_length (by omega)]
    exact room
  · omega

def append (data : Bytes) (bounded : d.used + data.length ≤ d.maxBufferSize) : FrameDecoder where
  buffer := setBytes (d.grow (d.used + data.length)) data d.used
  used := d.used + data.length
  maxBufferSize := d.maxBufferSize
  within := by
    have room := grow_length (Nat.le_add_right d.used data.length) bounded
    rw [setBytes_length room]
    exact room

/-- `copyWithin(0, offset, used)`: the bytes after the offset move to the front. -/
def compact (offset : Nat) : FrameDecoder :=
  if 0 < offset then
    { d with
      buffer := setBytes d.buffer (d.pending.drop offset) 0
      used := d.used - offset
      within := by
        have length := d.pending_length
        have := d.within
        rw [setBytes_length]
        · omega
        · rw [length_drop]
          omega }
  else d

def shrinkThreshold : Nat := 65536

def shrunkCap : Nat := max (d.used * 2) shrinkThreshold

def shrink : FrameDecoder :=
  if shrinkThreshold < d.buffer.length ∧ d.used * 4 < d.buffer.length ∧ d.shrunkCap < d.buffer.length then
    { d with
      buffer := d.reallocate d.shrunkCap
      within := by
        have room : d.used ≤ d.shrunkCap := by
          unfold shrunkCap
          omega
        rw [reallocate_length room]
        exact room }
  else d

end

/-- The loop of `feed`: the frames, the offset reached, and the error that stopped it. Every frame is longer than
    its header, so there are fewer rounds than bytes. -/
def decodeLoop (bytes : Bytes) : Nat → Nat → List WireFrame × Nat × Option FrameError
  | 0, offset => ([], offset, none)
  | fuel + 1, offset =>
    if offset + headerSize ≤ bytes.length then
      match decodeFrame (bytes.drop offset) with
      | .error error => ([], offset, some error)
      | .ok none => ([], offset, none)
      | .ok (some result) =>
        let (frames, reached, error) := decodeLoop bytes fuel (offset + result.bytesConsumed)
        (result.frame :: frames, reached, error)
    else ([], offset, none)

def feed (d : FrameDecoder) (data : Bytes) : Except FrameError (List WireFrame) × FrameDecoder :=
  if bounded : d.used + data.length ≤ d.maxBufferSize then
    let filled := d.append data bounded
    match decodeLoop filled.pending filled.used 0 with
    | (_, offset, some error) => (.error error, filled.compact offset)
    | (frames, offset, none) => (.ok frames, (filled.compact offset).shrink)
  else (.error (.bufferOverflow (d.used + data.length) d.maxBufferSize), create d.maxBufferSize)

def feedAll (d : FrameDecoder) : List Bytes → Except FrameError (List WireFrame × FrameDecoder)
  | [] => .ok ([], d)
  | chunk :: chunks =>
    match d.feed chunk with
    | (.error error, _) => .error error
    | (.ok frames, d) =>
      match d.feedAll chunks with
      | .error error => .error error
      | .ok (later, d) => .ok (frames ++ later, d)

end FrameDecoder

end Palimesh.Wire
