import AudioUtils.Proof.SpdifBytes

/-!
# One flushed SPDIF data burst

IEC 61937 carries a compressed frame in a data burst: the preamble words
`Pa Pb Pc Pd` (`Pc` the burst info, `Pd` the length code of the payload), then
the payload, two bytes to a 16-bit word with the first byte high, then zero
words to the end of the burst. `dataBurst` is that burst as the bytes a
little-endian host sends.

`Burst.Holds b pc d` says what the burst buffer holds while a burst is being
built: the preamble with burst info `pc` and length code `0`, then the bytes `d`
packed so far, the cursor after them and zeros above it. One lemma per call:

* `startDataBurst_holds`: at cursor 0, `startDataBurst` writes the preamble;
* `Burst.Holds.writeBurstBufferBytes`: packing bytes appends them;
* `flushBurstBuffer_holds`: the flush fills in the length code and hands a
  `writeOutput` that takes all it is given exactly `dataBurst` of the bytes.

So from a reachable encoder at the start of a burst, `startDataBurst`, a packing
and the flush send one data burst (`dataBurst_output`).
-/

namespace AudioUtils

/-! ## The reference burst -/

/-- Bytes two to a word, the first byte high; an odd last byte is padded with
zero. -/
def packWords : List UInt8 → List UInt16
  | [] => []
  | [a] => [a.toUInt16 <<< 8]
  | a :: b :: rest => (a.toUInt16 <<< 8 ||| b.toUInt16) :: packWords rest

/-- **An IEC 61937 data burst** of `burstSize` bytes carrying `d`, as a
little-endian host sends it: the preamble `Pa Pb pc pd`, `d` packed two bytes to
a word, then zero words to the end of the burst. -/
def dataBurst (burstSize : ℕ) (pc pd : UInt16) (d : List UInt8) : List UInt8 :=
  bufferBytes ([kSpdifSync1, kSpdifSync2, pc, pd] ++ packWords d ++
    List.replicate (burstSize / 2 - 4 - (d.length + 1) / 2) 0)

theorem length_packWords : ∀ d : List UInt8, (packWords d).length = (d.length + 1) / 2
  | [] => rfl
  | [_] => by simp [packWords]
  | _ :: _ :: rest => by simp only [packWords, List.length_cons, length_packWords rest]; omega

/-! ## Bytes of word lists -/

theorem byteAt_append_left {l₁ : List UInt16} (l₂ : List UInt16) {p : ℕ} (h : p / 2 < l₁.length) :
    byteAt (l₁ ++ l₂) p = byteAt l₁ p := by
  simp only [byteAt, List.getD_append _ _ _ _ h]

theorem byteAt_append_right (l₁ : List UInt16) {l₂ : List UInt16} {p : ℕ} (h : l₁.length ≤ p / 2) :
    byteAt (l₁ ++ l₂) p = byteAt l₂ (p - 2 * l₁.length) := by
  simp only [byteAt, List.getD_append_right _ _ _ _ h,
    show (p - 2 * l₁.length) / 2 = p / 2 - l₁.length by omega,
    show (p - 2 * l₁.length) % 2 = p % 2 by omega]

theorem byteAt_take (buf : List UInt16) (n p : ℕ) :
    byteAt (buf.take n) p = if p / 2 < n then byteAt buf p else 0 := by
  simp only [byteAt, List.getD_eq_getElem?_getD, List.getElem?_take]
  split_ifs <;> rfl

theorem bufferBytes_take (buf : List UInt16) (n : ℕ) :
    (bufferBytes buf).take (2 * n) = bufferBytes (buf.take n) := by
  induction buf generalizing n with
  | nil => simp [bufferBytes]
  | cons w buf ih =>
    cases n with
    | zero => simp [bufferBytes]
    | succ n =>
      rw [show 2 * (n + 1) = 2 * n + 1 + 1 by omega]
      simpa [bufferBytes] using ih n

/-- The packed words read back byte by byte give the bytes. -/
theorem byteAt_packWords : ∀ (d : List UInt8) (p : ℕ), byteAt (packWords d) p = d.getD p 0
  | [], p => by simpa using byteAt_replicate_zero 0 p
  | [a], 0 => (bytes_shiftLeft_eight a).1
  | [a], 1 => (bytes_shiftLeft_eight a).2
  | [a], p + 2 => by
    rw [packWords, ← List.append_nil [_], byteAt_append_right _ (by simp)]
    simpa using byteAt_replicate_zero 0 _
  | a :: b :: rest, p => by
    have hlow : (a.toUInt16 <<< 8).toNat % 256 = 0 := by rw [toNat_shiftLeft_eight]; omega
    match p with
    | 0 => exact (bytes_or_low b hlow).1.trans (bytes_shiftLeft_eight a).1
    | 1 => exact (bytes_or_low b hlow).2
    | p + 2 =>
      rw [packWords, ← List.singleton_append, byteAt_append_right _ (by simp)]
      simpa using byteAt_packWords rest p

/-- **A buffer read as a burst.** Words whose bytes are the preamble, then `d`
from byte 8 on, then zeros are the words of the data burst of `d`. -/
theorem eq_dataBurst_words {W : List UInt16} {pc pd : UInt16} {d : List UInt8}
    (hS : 8 + d.length ≤ 2 * W.length) (h4 : W.take 4 = [kSpdifSync1, kSpdifSync2, pc, pd])
    (hd : ∀ k (hk : k < d.length), byteAt W (8 + k) = d[k])
    (hz : ∀ p, 8 + d.length ≤ p → byteAt W p = 0) :
    W = [kSpdifSync1, kSpdifSync2, pc, pd] ++ packWords d ++
      List.replicate (2 * W.length / 2 - 4 - (d.length + 1) / 2) 0 := by
  have h4l : ([kSpdifSync1, kSpdifSync2, pc, pd] : List UInt16).length = 4 := rfl
  have hl : ([kSpdifSync1, kSpdifSync2, pc, pd] ++ packWords d).length = 4 + (d.length + 1) / 2 := by
    rw [List.length_append, length_packWords, h4l]
  refine ext_byteAt (by rw [List.length_append, hl, List.length_replicate]; omega) fun p => ?_
  by_cases h8 : p / 2 < 4
  · rw [byteAt_append_left _ (by omega), byteAt_append_left _ (by omega), ← h4, byteAt_take, if_pos h8]
  by_cases hp : p < 8 + d.length
  · have hk : p - 8 < d.length := by omega
    have hb := hd _ hk
    rw [show 8 + (p - 8) = p by omega] at hb
    rw [hb, byteAt_append_left _ (by omega), byteAt_append_right _ (by omega), byteAt_packWords, h4l]
    exact (List.getD_eq_getElem _ _ hk).symm
  rw [hz p (by omega)]
  by_cases hw : p / 2 < 4 + (d.length + 1) / 2
  · rw [byteAt_append_left _ (by omega), byteAt_append_right _ (by omega), byteAt_packWords,
      List.getD_eq_default _ _ (by omega)]
  · rw [byteAt_append_right _ (by omega), byteAt_replicate_zero]

/-! ## A burst in the making -/

namespace Burst

/-- The burst buffer holds a data burst in the making: the preamble `Pa Pb pc 0`,
then the bytes `d`, with the cursor after them and the buffer zero above it. -/
structure Holds (b : Burst) (pc : UInt16) (d : List UInt8) : Prop where
  packed : b.Packed
  preamble : b.burstBuffer.take 4 = [kSpdifSync1, kSpdifSync2, pc, 0]
  cursor : b.byteCursor = 8 + d.length
  bytes : ∀ k (hk : k < d.length), byteAt b.burstBuffer (8 + k) = d[k]

variable {b : Burst} {pc : UInt16} {d : List UInt8}

/-- **Packing appends**: bytes with room in the buffer are packed after those it
holds. -/
theorem Holds.writeBurstBufferBytes (h : b.Holds pc d) (d' : List UInt8)
    (hd : 8 + d.length + d'.length ≤ b.burstBufferSizeBytes) :
    ∃ b', b.writeBurstBufferBytes d' = .ok b' ∧ b'.burstBufferSizeBytes = b.burstBufferSizeBytes ∧
      b'.Holds pc (d ++ d') := by
  obtain ⟨b', hw, hs, hc, hl, hy⟩ := writeBurstBufferBytes_spec h.packed (d := d') (by rw [h.cursor]; omega)
  refine ⟨b', hw, hs, ⟨h.packed.of_spec hs hc hl hy, ?_, by rw [hc, h.cursor, List.length_append]; omega,
    fun k hk => ?_⟩⟩
  · rw [← h.preamble]
    refine ext_byteAt (by simp [hl]) fun p => ?_
    rw [byteAt_take, byteAt_take]
    split_ifs
    · rw [hy, if_neg (by rw [h.cursor]; omega)]
    · rfl
  · rw [hy, h.cursor]
    by_cases hk' : k < d.length
    · rw [if_neg (by omega), h.bytes k hk', List.getElem_append_left hk']
    · rw [List.length_append] at hk
      rw [if_pos (by omega), List.getElem_append_right (by omega),
        List.getD_eq_getElem _ _ (by omega)]
      congr 1; omega

/-- The first `burstSize` bytes of a buffer that holds `d`, once the length code
is in word 3, are the data burst of `d`. -/
theorem Holds.flushed (h : b.Holds pc d) (pd : UInt16) {S : ℕ} (hS : 8 + d.length ≤ S)
    (hlen : S ≤ 2 * b.burstBuffer.length) (he : S % 2 = 0) :
    (bufferBytes (b.burstBuffer.set 3 pd)).take S = dataBurst S pc pd d := by
  have hW : 2 * ((b.burstBuffer.set 3 pd).take (S / 2)).length = S := by simp; omega
  rw [show S = 2 * (S / 2) by omega, bufferBytes_take, dataBurst, ← show S = 2 * (S / 2) by omega]
  conv_rhs => rw [← hW]
  congr 1
  refine eq_dataBurst_words (by omega) ?_ (fun k hk => ?_) fun p hp => ?_
  · rw [List.take_take, show min 4 (S / 2) = 4 by omega, List.set_take, h.preamble]; rfl
  · rw [byteAt_take, if_pos (by omega), byteAt_set_of_ne _ (by omega), h.bytes k hk]
  · rw [byteAt_take]
    split_ifs
    · rw [byteAt_set_of_ne _ (by omega)]; exact h.packed.zero p (by rw [h.cursor]; omega)
    · rfl

end Burst

namespace Enc

variable {σ : Type} {fr : FrameScanner σ} {writeOutput : List (List UInt8) → List UInt8 → ℤ}
  {e : Enc σ}

/-! ## One lemma per call -/

variable (fr) in
/-- At cursor 0, `startDataBurst` writes the preamble `Pa Pb Pc 0`: the buffer
then holds a burst with nothing in it yet. -/
theorem startDataBurst_holds (hp : e.burst.Packed) (h0 : e.burst.byteCursor = 0)
    (h8 : 8 ≤ e.burst.burstBufferSizeBytes) :
    ∃ b, startDataBurst fr e = .ok { e with rateMultiplier := fr.getRateMultiplier e.framer, burst := b } ∧
      b.burstBufferSizeBytes = e.burst.burstBufferSizeBytes ∧
      b.Holds ((e.bitstreamNumber <<< 13) ||| (fr.getDataTypeInfo e.framer <<< 8) ||| fr.getDataType e.framer)
        [] := by
  have hw := hp.words
  have hs : startDataBurst fr e = .ok { e with
      rateMultiplier := fr.getRateMultiplier e.framer
      burst := { e.burst with
        burstBuffer := [kSpdifSync1, kSpdifSync2,
          (e.bitstreamNumber <<< 13) ||| (fr.getDataTypeInfo e.framer <<< 8) ||| fr.getDataType e.framer,
          0] ++ e.burst.burstBuffer.drop 4
        byteCursor := 8 } } := by
    unfold startDataBurst writeBurstBufferShorts
    simp only [h0]
    rw [if_neg (by
      rw [Burst.wouldOverflowBuffer_iff (b := { e.burst with byteCursor := (0 + 1) / 2 * 2 }) hp.size_lt]
      simp; omega)]
    simp [copyWords, show 4 ≤ e.burst.burstBuffer.length by omega]
  have hpk : KeepsPacked id (startDataBurst fr e) := startDataBurst_packed hp
  rw [hs] at hpk
  exact ⟨_, hs, rfl, hpk, by simp, rfl, fun _ hk => absurd hk (Nat.not_lt_zero _)⟩

variable (fr) in
/-- `startSyncFrame` packs the frame's header after the bytes the buffer holds;
the payload still to come is the rest of the frame. -/
theorem startSyncFrame_holds {pc : UInt16} {d : List UInt8} (h : e.burst.Holds pc d)
    (hd : 8 + d.length + (fr.header e.framer).length ≤ e.burst.burstBufferSizeBytes) :
    ∃ b, startSyncFrame fr e =
        .ok ({ e with burst := b }, fr.getFrameSizeBytes e.framer - (fr.header e.framer).length) ∧
      b.burstBufferSizeBytes = e.burst.burstBufferSizeBytes ∧ b.Holds pc (d ++ fr.header e.framer) := by
  obtain ⟨b, hw, hs, hb⟩ := h.writeBurstBufferBytes _ hd
  refine ⟨b, ?_, hs, hb⟩
  simp only [startSyncFrame, hw, bind, Except.bind]
  split_ifs with hlt
  · rw [Nat.sub_eq_zero_of_le (by omega)]; rfl
  · rfl

/-- An output loop from 0 into a `writeOutput` that takes each burst whole or
fails passes the whole burst in one call. -/
theorem writeLoop_accept
    (hout : ∀ outs bytes, writeOutput outs bytes < 0 ∨ (bytes.length : ℤ) ≤ writeOutput outs bytes)
    (e : Enc σ) (h0 : 0 < e.burst.byteCursor) (hc : e.burst.byteCursor ≤ 2 * e.burst.burstBuffer.length) :
    writeLoop writeOutput e 0 = .ok { e with
      outputs := e.outputs ++ [(bufferBytes e.burst.burstBuffer).take e.burst.byteCursor] } := by
  have hlen : ((bufferBytes e.burst.burstBuffer).take e.burst.byteCursor).length =
      e.burst.byteCursor := by
    rw [List.length_take, length_bufferBytes]; omega
  rw [writeLoop, if_pos h0, readBytes, if_pos (by omega)]
  simp only [List.drop_zero, Nat.sub_zero]
  rcases hout e.outputs ((bufferBytes e.burst.burstBuffer).take e.burst.byteCursor) with hneg | hge
  · rw [if_pos hneg]
  · rw [hlen] at hge
    rw [if_neg (by omega), if_neg (by omega), writeLoop, if_neg (by simp only; omega)]

variable (fr) in
/-- **The flush sends the burst.** From a buffer that holds a nonempty `d` that
fits the burst, `flushBurstBuffer` into a `writeOutput` that takes all it is
given writes the length code of `d` into word 3, sends `dataBurst` of `d` in one
call, and resets: the buffer is cleared and the scanner starts a new burst. -/
theorem flushBurstBuffer_holds (hout : ∀ outs bytes, writeOutput outs bytes = bytes.length)
    {pc : UInt16} {d : List UInt8} (h : e.burst.Holds pc d) (hd : d ≠ [])
    (hS : 8 + d.length ≤ fr.getSampleFramesPerSyncFrame e.framer * 2 * kSpdifEncodedChannelCount)
    (hsz : fr.getSampleFramesPerSyncFrame e.framer * 2 * kSpdifEncodedChannelCount ≤
      e.burst.burstBufferSizeBytes) :
    ∃ e', flushBurstBuffer fr writeOutput e = .ok e' ∧
      e'.outputs = e.outputs ++ [dataBurst (fr.getSampleFramesPerSyncFrame e.framer * 2 * kSpdifEncodedChannelCount)
        pc (fr.convertBytesToLengthCode e.framer d.length.toUInt16) d] ∧
      e'.burst.byteCursor = 0 ∧ e'.burst.Packed ∧
      e'.burst.burstBufferSizeBytes = e.burst.burstBufferSizeBytes ∧
      e'.framer = fr.resetBurst e.framer ∧ e'.bitstreamNumber = e.bitstreamNumber := by
  have hw := h.packed.words
  have hd0 : 0 < d.length := List.length_pos.2 hd
  simp only [kSpdifEncodedChannelCount] at hS hsz ⊢
  have hc := h.cursor
  unfold flushBurstBuffer
  simp only [if_pos (show e.burst.byteCursor > 8 by omega), writeWord,
    if_pos (show 3 < e.burst.burstBuffer.length by omega), bind, Except.bind, sendZeroPad,
    kSpdifEncodedChannelCount]
  rw [if_neg (by omega), writeLoop_accept (fun o b => .inr (hout o b ▸ Int.le_refl _)) _
    (by simp only; omega) (by simp only [List.length_set]; omega)]
  refine ⟨_, rfl, ?_, rfl, reset_packed ⟨by simpa using hw, h.packed.size_lt, fun p hp => ?_⟩, rfl, rfl, rfl⟩
  · simp only [hc, Nat.add_sub_cancel_left, h.flushed _ hS (by omega) (by omega)]; rfl
  · simp only at hp ⊢
    rw [byteAt_set_of_ne _ (by omega)]
    exact h.packed.zero p (by omega)

/-! ## The burst -/

/-- **One flushed data burst.** From an encoder reached by `write`,
`flushBurstBuffer` and `reset` calls, at the start of a burst: `startDataBurst`,
the packing of bytes `d` (a frame's header and payload, which may come in
pieces: `Burst.writeBurstBufferBytes_append`), then `flushBurstBuffer` hand a
`writeOutput` that takes all it is given exactly one burst, `dataBurst` of `d`
with the burst info and the length code of `|d|`, and leave the encoder at the
start of a burst. It needs a nonempty `d` that fits the burst, and a scanner
whose bursts fit the buffer. -/
theorem dataBurst_output
    (hfr : ∀ s, fr.getSampleFramesPerSyncFrame s ≤ fr.getMaxSampleFramesPerSyncFrame)
    (hout : ∀ outs bytes, writeOutput outs bytes = bytes.length)
    (hmax : 2 * kSpdifEncodedChannelCount * fr.getMaxSampleFramesPerSyncFrame < 2 ^ 64)
    (h : Reach fr writeOutput e) (h0 : e.burst.byteCursor = 0) {d : List UInt8} (hd : d ≠ [])
    (hS : 8 + d.length ≤ fr.getSampleFramesPerSyncFrame e.framer * 2 * kSpdifEncodedChannelCount) :
    ∃ e', (startDataBurst fr e >>= fun e₁ => e₁.burst.writeBurstBufferBytes d >>= fun b =>
        flushBurstBuffer fr writeOutput { e₁ with burst := b }) = .ok e' ∧
      e'.burst.byteCursor = 0 ∧
      e'.outputs = e.outputs ++ [dataBurst (fr.getSampleFramesPerSyncFrame e.framer * 2 * kSpdifEncodedChannelCount)
        ((e.bitstreamNumber <<< 13) ||| (fr.getDataTypeInfo e.framer <<< 8) ||| fr.getDataType e.framer)
        (fr.convertBytesToLengthCode e.framer d.length.toUInt16) d] := by
  have hp := h.packed writeOutput hmax
  have hsz := (h.sane writeOutput hfr hmax).size
  have hfe := hfr e.framer
  simp only [kSpdifEncodedChannelCount] at hS hsz
  obtain ⟨b₁, h1, hs₁, hb₁⟩ := startDataBurst_holds fr hp h0 (by omega)
  obtain ⟨b₂, h2, hs₂, hb₂⟩ := hb₁.writeBurstBufferBytes d (by simp; omega)
  rw [List.nil_append] at hb₂
  obtain ⟨e', h3, ho, hc, -⟩ := flushBurstBuffer_holds fr (e := { e with
    rateMultiplier := fr.getRateMultiplier e.framer, burst := b₂ }) hout hb₂ hd hS
    (by simp only [kSpdifEncodedChannelCount]; omega)
  rw [h1]
  simp only [bind, Except.bind, h2]
  exact ⟨e', h3, hc, ho⟩

/-- The encoder just built for the made-up format flushes three bytes as one
burst of 16 bytes. -/
theorem dataBurst_output_new :
    ∃ e', (startDataBurst toyScanner (Enc.new toyScanner ()) >>= fun e₁ =>
        e₁.burst.writeBurstBufferBytes [0xAA, 1, 2] >>= fun b =>
          flushBurstBuffer toyScanner acceptAll { e₁ with burst := b }) = .ok e' ∧
      e'.burst.byteCursor = 0 ∧
      e'.outputs = (Enc.new toyScanner ()).outputs ++
        [dataBurst (toyScanner.getSampleFramesPerSyncFrame () * 2 * kSpdifEncodedChannelCount)
          (((Enc.new toyScanner ()).bitstreamNumber <<< 13) ||| (toyScanner.getDataTypeInfo () <<< 8) |||
            toyScanner.getDataType ())
          (toyScanner.convertBytesToLengthCode () [0xAA, 1, 2].length.toUInt16) [0xAA, 1, 2]] :=
  dataBurst_output (fun _ => le_refl _) (fun _ _ => rfl) (by decide) (.new ()) rfl
    (List.cons_ne_nil _ _) (by decide)

end Enc

end AudioUtils
