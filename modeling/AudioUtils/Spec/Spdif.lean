import Mathlib.Data.List.Basic
import Mathlib.Algebra.Group.Nat.Basic

/-!
# `SPDIFEncoder`

The encoder wraps an encoded audio stream into IEC 61937 data bursts. It packs
the bytes of each frame into `mBurstBuffer`, an array of
`mBurstBufferSizeBytes / 2` 16-bit words, after a four-word preamble, and
`flushBurstBuffer` hands the burst to `writeOutput`.

The frame scanner (`AC3FrameScanner`, `DTSFrameScanner`) and `writeOutput` are
not part of this source: `FrameScanner` lets them behave in any way, and
`writeOutput` is a function of the calls made before and the bytes passed.

Every access to `mBurstBuffer` is bounds-checked: one outside the array ends the
call with `Fault.outOfBounds`. A `writeOutput` that returns `0` would make the
output loop spin forever; it ends the call with `Fault.noProgress`. `size_t`
values are natural numbers; the one subtraction that could wrap is computed
modulo `2^64`. The buffer goes out as the little-endian bytes of its words.
-/

namespace AudioUtils

/-- `kSpdifSync1` (IEC 61937 `Pa`), from `SPDIF.h`. -/
def kSpdifSync1 : UInt16 := 0xF872

/-- `kSpdifSync2` (IEC 61937 `Pb`), from `SPDIF.h`. -/
def kSpdifSync2 : UInt16 := 0x4E1F

/-- `kSpdifEncodedChannelCount`, from `SPDIF.h`. -/
def kSpdifEncodedChannelCount : ℕ := 2

/-- What the encoder asks of its frame scanner, over the scanner's state `σ`. -/
structure FrameScanner (σ : Type) where
  /-- `scan(byte)`: true once a frame header has been recognised. -/
  scan : σ → UInt8 → σ × Bool
  /-- The bytes at `getHeaderAddress()`, `getHeaderSizeBytes()` of them. -/
  header : σ → List UInt8
  getFrameSizeBytes : σ → ℕ
  isFirstInBurst : σ → Bool
  isLastInBurst : σ → Bool
  getSampleFramesPerSyncFrame : σ → ℕ
  getMaxSampleFramesPerSyncFrame : ℕ
  getDataTypeInfo : σ → UInt16
  getDataType : σ → UInt16
  getRateMultiplier : σ → ℕ
  convertBytesToLengthCode : σ → UInt16 → UInt16
  resetBurst : σ → σ

/-- How a call of the encoder can go wrong. -/
inductive Fault
  /-- An access outside `mBurstBuffer`. -/
  | outOfBounds
  /-- `writeOutput` returned `0`: the output loop never ends. -/
  | noProgress
  deriving DecidableEq, Repr

/-- The burst buffer: `mBurstBuffer`, `mBurstBufferSizeBytes`, `mByteCursor`. -/
structure Burst where
  burstBuffer : List UInt16
  burstBufferSizeBytes : ℕ
  byteCursor : ℕ
  deriving DecidableEq, Repr

/-- `size_t` subtraction. -/
def sizeSub (a b : ℕ) : ℕ := (a + (2 ^ 64 - b % 2 ^ 64)) % 2 ^ 64

/-- Read word `i` of the buffer. -/
def readWord (buf : List UInt16) (i : ℕ) : Except Fault UInt16 :=
  match buf[i]? with
  | some w => .ok w
  | none => .error .outOfBounds

/-- Write word `i` of the buffer. -/
def writeWord (buf : List UInt16) (i : ℕ) (w : UInt16) : Except Fault (List UInt16) :=
  if i < buf.length then .ok (buf.set i w) else .error .outOfBounds

/-- `memcpy` of whole words to word `i` on. -/
def copyWords (buf : List UInt16) (i : ℕ) (ws : List UInt16) : Except Fault (List UInt16) :=
  if i + ws.length ≤ buf.length then .ok (buf.take i ++ ws ++ buf.drop (i + ws.length))
  else .error .outOfBounds

/-- The bytes of the buffer in memory (little-endian words). -/
def bufferBytes (buf : List UInt16) : List UInt8 :=
  buf.flatMap fun w => [w.toUInt8, (w >>> 8).toUInt8]

/-- The `len` bytes at byte offset `off` of the buffer. -/
def readBytes (buf : List UInt16) (off len : ℕ) : Except Fault (List UInt8) :=
  if off + len ≤ 2 * buf.length then .ok (((bufferBytes buf).drop off).take len)
  else .error .outOfBounds

namespace Burst

/-- `wouldOverflowBuffer(numBytes)`: the `||` evaluates the subtraction only when
`numBytes <= mBurstBufferSizeBytes`. -/
def wouldOverflowBuffer (b : Burst) (numBytes : ℕ) : Bool :=
  numBytes > b.burstBufferSizeBytes || b.byteCursor > sizeSub b.burstBufferSizeBytes numBytes

/-- `clearBurstBuffer`: `memset` the buffer to zero and rewind the cursor. -/
def clearBurstBuffer (b : Burst) : Burst :=
  { b with burstBuffer := List.replicate b.burstBuffer.length 0, byteCursor := 0 }

/-- The packing loop of `writeBurstBufferBytes` from cursor `cursor` with the
partial word `pad`: an even cursor puts the byte in the high half of `pad`, an
odd one in the low half, and stores `pad`. -/
def packBytes : List UInt16 → ℕ → UInt16 → List UInt8 → Except Fault (List UInt16 × ℕ × UInt16)
  | buf, cursor, pad, [] => .ok (buf, cursor, pad)
  | buf, cursor, pad, x :: xs =>
    if cursor % 2 = 1 then do
      let buf ← writeWord buf (cursor / 2) (pad ||| x.toUInt16)
      packBytes buf (cursor + 1) 0 xs
    else packBytes buf (cursor + 1) (pad ||| (x.toUInt16 <<< 8)) xs

/-- `writeBurstBufferBytes`: on overflow only `clearBurstBuffer`; otherwise read
the word under the cursor into `pad`, pack the bytes, and store a last partial
word. -/
def writeBurstBufferBytes (b : Burst) (bytes : List UInt8) : Except Fault Burst :=
  if b.wouldOverflowBuffer bytes.length then .ok b.clearBurstBuffer
  else if bytes.length = 0 then .ok b
  else do
    let pad ← readWord b.burstBuffer (b.byteCursor / 2)
    let (buf, cursor, pad) ← packBytes b.burstBuffer b.byteCursor pad bytes
    if cursor % 2 = 1 then do
      let buf ← writeWord buf (cursor / 2) pad
      pure { b with burstBuffer := buf, byteCursor := cursor }
    else pure { b with burstBuffer := buf, byteCursor := cursor }

end Burst

/-- `SPDIFEncoder`'s state. `mSampleRate` is set by the constructor and never
read here. -/
structure Enc (σ : Type) where
  /-- The frame scanner's state. -/
  framer : σ
  burst : Burst
  rateMultiplier : ℕ
  bitstreamNumber : UInt16
  payloadBytesPending : ℕ
  scanning : Bool
  /-- The bytes passed to each `writeOutput` call so far. -/
  outputs : List (List UInt8)

namespace Enc

variable {σ : Type} (fr : FrameScanner σ)

/-- `SPDIFEncoder(format)`: a buffer of `2 * 2 * max` bytes, cleared. -/
def new (framer : σ) : Enc σ :=
  let size := 2 * kSpdifEncodedChannelCount * fr.getMaxSampleFramesPerSyncFrame
  { framer
    burst := Burst.clearBurstBuffer ⟨List.replicate (size / 2) 0, size, 0⟩
    rateMultiplier := 1
    bitstreamNumber := 0
    payloadBytesPending := 0
    scanning := true
    outputs := [] }

/-- `reset()`. -/
def reset (e : Enc σ) : Enc σ :=
  { e with
    burst := e.burst.clearBurstBuffer
    framer := fr.resetBurst e.framer
    payloadBytesPending := 0
    scanning := true }

/-- `writeBurstBufferShorts`: round the cursor up to even, `reset()` on
overflow, else `memcpy` the words. -/
def writeBurstBufferShorts (e : Enc σ) (ws : List UInt16) : Except Fault (Enc σ) :=
  let b := { e.burst with byteCursor := (e.burst.byteCursor + 1) / 2 * 2 }
  let bytesToWrite := ws.length * 2
  if b.wouldOverflowBuffer bytesToWrite then .ok (reset fr { e with burst := b })
  else do
    let buf ← copyWords b.burstBuffer (b.byteCursor / 2) ws
    pure { e with burst := { b with burstBuffer := buf, byteCursor := b.byteCursor + bytesToWrite } }

/-- `sendZeroPad`: the cursor jumps to the end of the burst, or the buffer is
cleared if it already holds more. -/
def sendZeroPad (e : Enc σ) : Enc σ :=
  let burstSize := fr.getSampleFramesPerSyncFrame e.framer * 2 * kSpdifEncodedChannelCount
  if e.burst.byteCursor > burstSize then { e with burst := e.burst.clearBurstBuffer }
  else { e with burst := { e.burst with byteCursor := burstSize } }

/-- The output loop of `flushBurstBuffer` from `bytesWritten`: pass the rest of
the burst to `writeOutput` until it is all written or `writeOutput` fails. -/
def writeLoop (writeOutput : List (List UInt8) → List UInt8 → ℤ) (e : Enc σ) (bytesWritten : ℕ) :
    Except Fault (Enc σ) :=
  if e.burst.byteCursor > bytesWritten then
    match readBytes e.burst.burstBuffer bytesWritten (e.burst.byteCursor - bytesWritten) with
    | .error f => .error f
    | .ok bytes =>
      let res := writeOutput e.outputs bytes
      let e' := { e with outputs := e.outputs ++ [bytes] }
      if res < 0 then .ok e'
      else if res = 0 then .error .noProgress
      else writeLoop writeOutput e' (bytesWritten + res.toNat)
  else .ok e
termination_by e.burst.byteCursor - bytesWritten

/-- `flushBurstBuffer`: with more than the preamble in the buffer, set the length
code (a `uint16_t`) in word 3, pad, and write the burst out; then `reset()`. -/
def flushBurstBuffer (writeOutput : List (List UInt8) → List UInt8 → ℤ) (e : Enc σ) :
    Except Fault (Enc σ) :=
  if e.burst.byteCursor > 8 then do
    let numBytes : UInt16 := (e.burst.byteCursor - 8).toUInt16
    let buf ← writeWord e.burst.burstBuffer 3 (fr.convertBytesToLengthCode e.framer numBytes)
    let e := sendZeroPad fr { e with burst := { e.burst with burstBuffer := buf } }
    let e ← writeLoop writeOutput e 0
    pure (reset fr e)
  else pure (reset fr e)

/-- `startDataBurst`: the preamble `Pa Pb burst-info 0`. -/
def startDataBurst (e : Enc σ) : Except Fault (Enc σ) :=
  let burstInfo : UInt16 := (e.bitstreamNumber <<< 13) ||| (fr.getDataTypeInfo e.framer <<< 8) |||
    fr.getDataType e.framer
  let e := { e with rateMultiplier := fr.getRateMultiplier e.framer }
  writeBurstBufferShorts fr e [kSpdifSync1, kSpdifSync2, burstInfo, 0]

/-- `startSyncFrame`: write the frame header; the payload bytes still to come,
`0` if the frame size is smaller than the header. -/
def startSyncFrame (e : Enc σ) : Except Fault (Enc σ × ℕ) := do
  let headerSize := (fr.header e.framer).length
  let b ← e.burst.writeBurstBufferBytes (fr.header e.framer)
  let e := { e with burst := b }
  let frameSize := fr.getFrameSizeBytes e.framer
  if frameSize < headerSize then pure (e, 0) else pure (e, frameSize - headerSize)

/-- The loop of `write(buffer, numBytes)` over the bytes left: scan for a frame
and start it (and a burst), or write payload up to the end of the frame and
flush a burst after its last frame. -/
def writeData (writeOutput : List (List UInt8) → List UInt8 → ℤ) (e : Enc σ) (data : List UInt8) :
    Except Fault (Enc σ) :=
  match data with
  | [] => .ok e
  | x :: rest =>
    if e.scanning then
      let (framer, found) := fr.scan e.framer x
      let e := { e with framer }
      if found then do
        let e ← if e.burst.byteCursor = 0 then startDataBurst fr e
          else if fr.isFirstInBurst e.framer then do
            let e ← flushBurstBuffer fr writeOutput e
            startDataBurst fr e
          else pure e
        let (e, pending) ← startSyncFrame fr e
        writeData writeOutput { e with payloadBytesPending := pending, scanning := false } rest
      else writeData writeOutput e rest
    else
      let bytesToWrite := min (x :: rest).length e.payloadBytesPending
      match e.burst.writeBurstBufferBytes ((x :: rest).take bytesToWrite) with
      | .error f => .error f
      | .ok b =>
        let e := { e with burst := b, payloadBytesPending := e.payloadBytesPending - bytesToWrite }
        if e.payloadBytesPending = 0 then do
          let e ← if fr.isLastInBurst e.framer then flushBurstBuffer fr writeOutput e else pure e
          writeData writeOutput { e with scanning := true } ((x :: rest).drop bytesToWrite)
        else writeData writeOutput e ((x :: rest).drop bytesToWrite)
termination_by 2 * data.length + if e.scanning then 0 else 1
decreasing_by
  all_goals simp_wf
  all_goals simp_all
  all_goals omega

/-- One pass of the body of `write`'s `while (bytesLeft > 0)` loop, on the bytes
left `x :: rest`: the encoder and the bytes left after it. -/
def writeIteration (writeOutput : List (List UInt8) → List UInt8 → ℤ) (e : Enc σ) (x : UInt8)
    (rest : List UInt8) : Except Fault (Enc σ × List UInt8) :=
  if e.scanning then
    let (framer, found) := fr.scan e.framer x
    let e := { e with framer }
    if found then do
      let e ← if e.burst.byteCursor = 0 then startDataBurst fr e
        else if fr.isFirstInBurst e.framer then do
          let e ← flushBurstBuffer fr writeOutput e
          startDataBurst fr e
        else pure e
      let (e, pending) ← startSyncFrame fr e
      pure ({ e with payloadBytesPending := pending, scanning := false }, rest)
    else pure (e, rest)
  else
    let bytesToWrite := min (x :: rest).length e.payloadBytesPending
    match e.burst.writeBurstBufferBytes ((x :: rest).take bytesToWrite) with
    | .error f => .error f
    | .ok b =>
      let e := { e with burst := b, payloadBytesPending := e.payloadBytesPending - bytesToWrite }
      if e.payloadBytesPending = 0 then do
        let e ← if fr.isLastInBurst e.framer then flushBurstBuffer fr writeOutput e else pure e
        pure ({ e with scanning := true }, (x :: rest).drop bytesToWrite)
      else pure (e, (x :: rest).drop bytesToWrite)

/-- `write`'s loop allowed `fuel` passes of its body: `none` if bytes are left
after them. -/
def writeLoopFuel (writeOutput : List (List UInt8) → List UInt8 → ℤ) :
    ℕ → Enc σ → List UInt8 → Option (Except Fault (Enc σ))
  | _, e, [] => some (.ok e)
  | 0, _, _ :: _ => none
  | fuel + 1, e, x :: rest =>
    match writeIteration fr writeOutput e x rest with
    | .error f => some (.error f)
    | .ok (e, data) => writeLoopFuel writeOutput fuel e data

/-- `write(buffer, numBytes)`: the loop, then `numBytes`. -/
def write (writeOutput : List (List UInt8) → List UInt8 → ℤ) (e : Enc σ) (data : List UInt8) :
    Except Fault (Enc σ × ℤ) := do
  let e ← writeData fr writeOutput e data
  pure (e, data.length)

/-- The calls that change an encoder. -/
inductive Call
  | write (data : List UInt8)
  | flushBurstBuffer
  | reset

/-- One call. -/
def apply (writeOutput : List (List UInt8) → List UInt8 → ℤ) (e : Enc σ) : Call → Except Fault (Enc σ)
  | .write data => (write fr writeOutput e data).map Prod.fst
  | .flushBurstBuffer => flushBurstBuffer fr writeOutput e
  | .reset => .ok (reset fr e)

/-- The encoders reachable from the constructor by calls that return. -/
inductive Reach (writeOutput : List (List UInt8) → List UInt8 → ℤ) : Enc σ → Prop
  | new (framer : σ) : Reach writeOutput (new fr framer)
  | step {e e' : Enc σ} (c : Call) : Reach writeOutput e → apply fr writeOutput e c = .ok e' →
      Reach writeOutput e'

end Enc

end AudioUtils
