import AudioUtils.Proof.SpdifBurst

/-!
# `write` encapsulates a stream of frames

A stream of compressed frames, each recognised by the scanner at its sync byte,
each the last of its burst and fitting the burst, goes through `write` as one
IEC 61937 data burst per frame (`write_bursts`): `bursts` is that reference
output, computed from the scanner alone. The encoder ends scanning at the start
of a burst, so the stream may be cut into `write` calls at frame boundaries.

`writeData_frame` is one frame: `write`'s loop skips the bytes before the sync
byte (`writeData_found`), starts the burst and the frame, packs the payload,
and flushes after it.
-/

namespace AudioUtils

namespace FrameScanner

variable {σ : Type} (fr : FrameScanner σ)

/-- The scanner, from state `s`, reads `skipped` without recognising a header
and recognises one at `sync`: its state then; `none` if it recognises one
earlier, or none at `sync`. -/
def findHeader : σ → List UInt8 → UInt8 → Option σ
  | s, [], sync => if (fr.scan s sync).2 then some (fr.scan s sync).1 else none
  | s, x :: skipped, sync => if (fr.scan s x).2 then none else findHeader (fr.scan s x).1 skipped sync

/-- The bytes of a burst of the frame the scanner is on (`burstSize` of
`sendZeroPad`). -/
def burstSize (s : σ) : ℕ := fr.getSampleFramesPerSyncFrame s * 2 * kSpdifEncodedChannelCount

/-- The burst info `Pc` of the frame the scanner is on, in bitstream `bsn`. -/
def burstInfo (bsn : UInt16) (s : σ) : UInt16 :=
  (bsn <<< 13) ||| (fr.getDataTypeInfo s <<< 8) ||| fr.getDataType s

end FrameScanner

/-- A compressed frame in `write`'s input: the bytes the scanner skips, the byte
at which it recognises the frame's header, and the frame's bytes after the
header. -/
structure Frame where
  skipped : List UInt8
  sync : UInt8
  payload : List UInt8
  deriving DecidableEq, Repr

/-- The frame's bytes in the input. -/
def Frame.bytes (f : Frame) : List UInt8 := f.skipped ++ f.sync :: f.payload

namespace FrameScanner

variable {σ : Type} (fr : FrameScanner σ)

/-- **The bursts of a stream of frames**, each alone in its burst, from scanner
state `s` in bitstream `bsn`: for each frame, the data burst of its header and
payload with the burst info and length code of the scanner state at its header;
the scanner then starts the next burst. -/
def bursts (bsn : UInt16) : σ → List Frame → List (List UInt8)
  | _, [] => []
  | s, f :: fs =>
    match fr.findHeader s f.skipped f.sync with
    | none => []
    | some s₁ =>
      dataBurst (fr.burstSize s₁) (fr.burstInfo bsn s₁)
          (fr.convertBytesToLengthCode s₁ (fr.header s₁ ++ f.payload).length.toUInt16)
          (fr.header s₁ ++ f.payload) ::
        bursts bsn (fr.resetBurst s₁) fs

/-- A frame that the scanner in state `s₁` at its header can carry alone in a
burst: its payload completes the frame, it is the last of its burst, and it fits
the burst. -/
structure Fits (s₁ : σ) (f : Frame) : Prop where
  size : (fr.header s₁).length + f.payload.length = fr.getFrameSizeBytes s₁
  payload : f.payload ≠ []
  last : fr.isLastInBurst s₁ = true
  fits : 8 + fr.getFrameSizeBytes s₁ ≤ fr.burstSize s₁

/-- Every frame of the stream is recognised at its sync byte and fits its burst. -/
def Frames : σ → List Frame → Prop
  | _, [] => True
  | s, f :: fs =>
    match fr.findHeader s f.skipped f.sync with
    | none => False
    | some s₁ => fr.Fits s₁ f ∧ Frames (fr.resetBurst s₁) fs

instance decidableFits (s₁ : σ) (f : Frame) : Decidable (fr.Fits s₁ f) :=
  decidable_of_iff (_ ∧ _ ∧ _ ∧ _)
    ⟨fun ⟨a, b, c, d⟩ => ⟨a, b, c, d⟩, fun ⟨a, b, c, d⟩ => ⟨a, b, c, d⟩⟩

instance decidableFrames : (s : σ) → (fs : List Frame) → Decidable (fr.Frames s fs)
  | _, [] => isTrue trivial
  | s, f :: fs =>
    match h : fr.findHeader s f.skipped f.sync with
    | none => isFalse (by simp [Frames, h])
    | some s₁ =>
      have := decidableFrames (fr.resetBurst s₁) fs
      decidable_of_iff (fr.Fits s₁ f ∧ fr.Frames (fr.resetBurst s₁) fs) (by simp [Frames, h])

end FrameScanner

namespace Enc

variable {σ : Type} {fr : FrameScanner σ} {writeOutput : List (List UInt8) → List UInt8 → ℤ}

/-- An encoder scanning for a frame at the start of a burst, with its buffer
packed and of the constructor's size. -/
structure Ready (fr : FrameScanner σ) (e : Enc σ) : Prop where
  scanning : e.scanning = true
  cursor : e.burst.byteCursor = 0
  packed : e.burst.Packed
  size : e.burst.burstBufferSizeBytes = 2 * kSpdifEncodedChannelCount * fr.getMaxSampleFramesPerSyncFrame

/-- `write`'s loop skips the bytes before the sync byte, then starts a burst and
the frame. -/
theorem writeData_found {e : Enc σ} (hs : e.scanning = true) (h0 : e.burst.byteCursor = 0) :
    ∀ {skipped : List UInt8} {sync : UInt8} {s₁ : σ}, fr.findHeader e.framer skipped sync = some s₁ →
      ∀ rest, writeData fr writeOutput e (skipped ++ sync :: rest) =
        (startDataBurst fr { e with framer := s₁ } >>= fun e => startSyncFrame fr e >>= fun (e, pending) =>
          writeData fr writeOutput { e with payloadBytesPending := pending, scanning := false } rest) := by
  intro skipped
  induction skipped generalizing e with
  | nil =>
    intro sync s₁ hf rest
    simp only [FrameScanner.findHeader] at hf
    split_ifs at hf with hfound
    cases hf
    have hsc : fr.scan e.framer sync = ((fr.scan e.framer sync).1, true) := Prod.ext rfl hfound
    rw [List.nil_append, writeData.eq_2, if_pos hs, hsc]
    dsimp only
    rw [if_pos rfl, if_pos h0]
  | cons x skipped ih =>
    intro sync s₁ hf rest
    simp only [FrameScanner.findHeader] at hf
    split_ifs at hf with hfound
    have hsc : fr.scan e.framer x = ((fr.scan e.framer x).1, false) := Prod.ext rfl (by simpa using hfound)
    rw [List.cons_append, writeData.eq_2, if_pos hs, hsc]
    dsimp only
    rw [if_neg Bool.false_ne_true]
    exact ih (e := { e with framer := (fr.scan e.framer x).1 }) hs h0 hf rest

/-- Past the header, `write`'s loop packs the frame's payload in one pass and,
for the last frame of a burst, flushes it. -/
theorem writeData_payload {e : Enc σ} (hs : e.scanning = false) {payload : List UInt8}
    (hp : payload ≠ []) (hn : e.payloadBytesPending = payload.length) {b : Burst}
    (hb : e.burst.writeBurstBufferBytes payload = .ok b) (hl : fr.isLastInBurst e.framer = true)
    (rest : List UInt8) :
    writeData fr writeOutput e (payload ++ rest) =
      (flushBurstBuffer fr writeOutput { e with burst := b, payloadBytesPending := 0 } >>= fun e =>
        writeData fr writeOutput { e with scanning := true } rest) := by
  obtain ⟨x, xs, rfl⟩ := List.exists_cons_of_ne_nil hp
  have hmin : min (x :: (xs ++ rest)).length e.payloadBytesPending = (x :: xs).length := by
    simp only [hn, List.length_cons, List.length_append]; omega
  rw [List.cons_append, writeData.eq_2, if_neg (by simp [hs])]
  dsimp only
  rw [hmin, ← List.cons_append, List.take_left, hb]
  dsimp only
  rw [hn, Nat.sub_self, if_pos rfl, if_pos hl, List.drop_left]

/-- **One frame.** From a ready encoder, a frame that the scanner recognises at
its sync byte and that fits its burst goes through `write`'s loop as its data
burst; the encoder is then ready again, its scanner at the next burst. -/
theorem writeData_frame
    (hfr : ∀ s, fr.getSampleFramesPerSyncFrame s ≤ fr.getMaxSampleFramesPerSyncFrame)
    (hout : ∀ outs bytes, writeOutput outs bytes = bytes.length) {e : Enc σ} (hr : Ready fr e)
    {f : Frame} {s₁ : σ} (hf : fr.findHeader e.framer f.skipped f.sync = some s₁) (hfit : fr.Fits s₁ f) :
    ∃ e', (∀ rest, writeData fr writeOutput e (f.bytes ++ rest) = writeData fr writeOutput e' rest) ∧
      Ready fr e' ∧ e'.framer = fr.resetBurst s₁ ∧ e'.bitstreamNumber = e.bitstreamNumber ∧
      e'.outputs = e.outputs ++ [dataBurst (fr.burstSize s₁) (fr.burstInfo e.bitstreamNumber s₁)
        (fr.convertBytesToLengthCode s₁ (fr.header s₁ ++ f.payload).length.toUInt16)
        (fr.header s₁ ++ f.payload)] := by
  have hfe := hfr s₁
  have hsz := hr.size
  have hS := hfit.fits
  have hsize := hfit.size
  simp only [FrameScanner.burstSize, kSpdifEncodedChannelCount] at hS hsz
  obtain ⟨b₁, h1, hs₁, hb₁⟩ := startDataBurst_holds fr (e := { e with framer := s₁ }) hr.packed
    hr.cursor (by simp only; omega)
  dsimp only at h1 hs₁
  obtain ⟨b₂, h2, hs₂, hb₂⟩ := startSyncFrame_holds fr
    (e := { e with framer := s₁, rateMultiplier := fr.getRateMultiplier s₁, burst := b₁ }) hb₁
    (by simp only [List.length_nil]; omega)
  dsimp only at h2 hs₂
  obtain ⟨b₃, h3, hs₃, hb₃⟩ := hb₂.writeBurstBufferBytes f.payload
    (by simp only [List.nil_append]; omega)
  rw [List.nil_append] at hb₃
  obtain ⟨e₄, h4, ho₄, hc₄, hp₄, hs₄, hf₄, hb₄⟩ := flushBurstBuffer_holds fr (e := { e with
    framer := s₁, rateMultiplier := fr.getRateMultiplier s₁, burst := b₃, payloadBytesPending := 0,
    scanning := false })
    hout hb₃ (by simp [hfit.payload]) (by simp only [List.length_append, kSpdifEncodedChannelCount]; omega)
    (by simp only [kSpdifEncodedChannelCount] at hs₃ hs₂ hs₁ ⊢; omega)
  refine ⟨{ e₄ with scanning := true }, fun rest => ?_,
    ⟨rfl, hc₄, hp₄, by rw [hs₄]; simp only; rw [hs₃, hs₂, hs₁, hr.size]⟩, hf₄, hb₄, ho₄⟩
  rw [Frame.bytes, List.append_assoc, List.cons_append, writeData_found hr.scanning hr.cursor hf, h1]
  simp only [bind, Except.bind, h2]
  rw [writeData_payload _ hfit.payload _ h3 hfit.last, h4]
  · rfl
  · rfl
  · simp only; omega

/-- A stream of frames goes through `write`'s loop as their bursts, frame after
frame. -/
theorem writeData_frames
    (hfr : ∀ s, fr.getSampleFramesPerSyncFrame s ≤ fr.getMaxSampleFramesPerSyncFrame)
    (hout : ∀ outs bytes, writeOutput outs bytes = bytes.length) :
    ∀ (fs : List Frame) {e : Enc σ}, Ready fr e → fr.Frames e.framer fs →
      ∃ e', (∀ rest, writeData fr writeOutput e (fs.flatMap Frame.bytes ++ rest) =
          writeData fr writeOutput e' rest) ∧
        Ready fr e' ∧ e'.bitstreamNumber = e.bitstreamNumber ∧
        e'.outputs = e.outputs ++ fr.bursts e.bitstreamNumber e.framer fs
  | [], e, hr, _ => ⟨e, fun _ => rfl, hr, rfl, by simp [FrameScanner.bursts]⟩
  | f :: fs, e, hr, hf => by
    unfold FrameScanner.Frames at hf
    split at hf
    · exact hf.elim
    rename_i s₁ hfind
    obtain ⟨e₁, hw₁, hr₁, hf₁, hb₁, ho₁⟩ := writeData_frame hfr hout hr hfind hf.1
    obtain ⟨e₂, hw₂, hr₂, hb₂, ho₂⟩ := writeData_frames hfr hout fs hr₁ (hf₁ ▸ hf.2)
    refine ⟨e₂, fun rest => ?_, hr₂, hb₂.trans hb₁, ?_⟩
    · rw [List.flatMap_cons, List.append_assoc, hw₁, hw₂]
    · rw [ho₂, ho₁, hb₁, hf₁, FrameScanner.bursts, hfind, List.append_assoc, List.singleton_append]

/-- **`write` encapsulates a stream of frames.** From an encoder reached by
`write`, `flushBurstBuffer` and `reset` calls that is scanning at the start of a
burst, `write` of a stream of frames that the scanner recognises at their sync
bytes and that each fit their burst alone, into a `writeOutput` that takes all
it is given, returns the stream's length and sends exactly `bursts`: the
IEC 61937 data burst of each frame's header and payload. The encoder is again
scanning at the start of a burst. The scanner's bursts must fit the buffer. -/
theorem write_bursts
    (hfr : ∀ s, fr.getSampleFramesPerSyncFrame s ≤ fr.getMaxSampleFramesPerSyncFrame)
    (hout : ∀ outs bytes, writeOutput outs bytes = bytes.length)
    (hmax : 2 * kSpdifEncodedChannelCount * fr.getMaxSampleFramesPerSyncFrame < 2 ^ 64)
    {e : Enc σ} (h : Reach fr writeOutput e) (hs : e.scanning = true) (h0 : e.burst.byteCursor = 0)
    {fs : List Frame} (hf : fr.Frames e.framer fs) :
    ∃ e', write fr writeOutput e (fs.flatMap Frame.bytes) = .ok (e', (fs.flatMap Frame.bytes).length) ∧
      e'.outputs = e.outputs ++ fr.bursts e.bitstreamNumber e.framer fs ∧
      e'.scanning = true ∧ e'.burst.byteCursor = 0 := by
  obtain ⟨e', hw, hr', -, ho⟩ := writeData_frames hfr hout fs
    ⟨hs, h0, h.packed writeOutput hmax, (h.sane writeOutput hfr hmax).size⟩ hf
  have hw' := hw []
  rw [List.append_nil, writeData] at hw'
  refine ⟨e', ?_, ho, hr'.scanning, hr'.cursor⟩
  simp only [write, hw', bind, Except.bind]
  rfl

end Enc

/-- A scanner for a made-up format whose 5-byte frames, the header byte `0xAA`
and 4 payload bytes, fit a 16-byte burst. -/
def smallScanner : FrameScanner Unit := { toyScanner with getFrameSizeBytes := fun _ => 5 }

/-- Two frames, the first after two bytes the scanner skips. -/
def smallFrames : List Frame := [⟨[0x00, 0x11], 0xAA, [1, 2, 3, 4]⟩, ⟨[], 0xAA, [5, 6, 7, 8]⟩]

theorem write_bursts_new :
    ∃ e', Enc.write smallScanner acceptAll (Enc.new smallScanner ()) (smallFrames.flatMap Frame.bytes) =
        .ok (e', (smallFrames.flatMap Frame.bytes).length) ∧
      e'.outputs = (Enc.new smallScanner ()).outputs ++
        smallScanner.bursts (Enc.new smallScanner ()).bitstreamNumber (Enc.new smallScanner ()).framer
          smallFrames ∧
      e'.scanning = true ∧ e'.burst.byteCursor = 0 :=
  Enc.write_bursts (fun _ => le_refl _) (fun _ _ => rfl) (by decide) (.new ()) rfl rfl (by decide)

/-- The two bursts: `Pa Pb`, the burst info `1`, the length code `5 * 8`, the
frame two bytes to a word, the first byte high, each word sent low byte first. -/
example : smallScanner.bursts 0 () smallFrames =
    [[0x72, 0xF8, 0x1F, 0x4E, 1, 0, 40, 0, 0x01, 0xAA, 0x03, 0x02, 0x00, 0x04, 0, 0],
      [0x72, 0xF8, 0x1F, 0x4E, 1, 0, 40, 0, 0x05, 0xAA, 0x07, 0x06, 0x00, 0x08, 0, 0]] := by
  decide

end AudioUtils
