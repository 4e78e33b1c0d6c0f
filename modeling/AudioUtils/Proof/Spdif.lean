import AudioUtils.Spec.Spdif

/-!
# Bounds of the SPDIF burst buffer

* `Burst.wouldOverflowBuffer_iff`: with the buffer size a `size_t`, the check is
  exactly `mByteCursor + numBytes > mBurstBufferSizeBytes`.
* `Burst.writeBurstBufferBytes_ok`: packing bytes into a sane buffer never
  leaves it and keeps the cursor inside.
* `Enc.writeData_safe`, `Enc.apply_safe`: from a sane encoder, every call ends
  with a sane encoder or with `writeOutput` making no progress, never with an
  access out of bounds; `Enc.spdif_buffer_bounds` carries this over every run.
* `spdif_overflow_burst_unsynced`, `spdif_split_changes_output`: on a made-up
  format whose frames outgrow the buffer, the overflow recovery of
  `writeBurstBufferBytes` (`clearBurstBuffer` only, no `reset`) lets the rest of
  a frame through as a burst with no preamble, and only when the frame was split
  over two `write` calls.
-/

namespace AudioUtils

namespace Burst

/-- **The burst buffer's invariant**: `mBurstBufferSizeBytes / 2` words, a size
that fits a `size_t`, and the cursor inside. -/
structure Sane (b : Burst) : Prop where
  words : 2 * b.burstBuffer.length = b.burstBufferSizeBytes
  size_lt : b.burstBufferSizeBytes < 2 ^ 64
  cursor_le : b.byteCursor ≤ b.burstBufferSizeBytes

variable {b : Burst}

theorem sizeSub_of_le {a n : ℕ} (ha : a < 2 ^ 64) (hn : n ≤ a) : sizeSub a n = a - n := by
  unfold sizeSub
  rw [Nat.mod_eq_of_lt (by omega : n < 2 ^ 64)]
  rw [show a + (2 ^ 64 - n) = (a - n) + 2 ^ 64 by omega, Nat.add_mod_right, Nat.mod_eq_of_lt (by omega)]

/-- **`wouldOverflowBuffer` is exact**: the subtraction is evaluated only when it
cannot wrap. -/
theorem wouldOverflowBuffer_iff (hs : b.burstBufferSizeBytes < 2 ^ 64) (n : ℕ) :
    b.wouldOverflowBuffer n = true ↔ b.burstBufferSizeBytes < b.byteCursor + n := by
  simp only [wouldOverflowBuffer, Bool.or_eq_true, decide_eq_true_eq]
  by_cases hn : n > b.burstBufferSizeBytes
  · omega
  · rw [sizeSub_of_le hs (by omega)]; omega

theorem Sane.clearBurstBuffer (h : b.Sane) : b.clearBurstBuffer.Sane :=
  ⟨by simpa [Burst.clearBurstBuffer] using h.words, h.size_lt, Nat.zero_le _⟩

@[simp] theorem clearBurstBuffer_size : b.clearBurstBuffer.burstBufferSizeBytes = b.burstBufferSizeBytes :=
  rfl

/-- The packing loop stays inside a buffer that has room for the bytes, and
advances the cursor by their number. -/
theorem packBytes_ok {size : ℕ} (bytes : List UInt8) :
    ∀ (buf : List UInt16) (cursor : ℕ) (pad : UInt16), 2 * buf.length = size →
      cursor + bytes.length ≤ size →
      ∃ buf' pad', packBytes buf cursor pad bytes = .ok (buf', cursor + bytes.length, pad') ∧
        buf'.length = buf.length := by
  induction bytes with
  | nil => intro buf cursor pad _ _; exact ⟨buf, pad, rfl, rfl⟩
  | cons x xs ih =>
    intro buf cursor pad hbuf hroom
    simp only [List.length_cons] at hroom
    rw [List.length_cons, ← Nat.add_assoc, Nat.add_right_comm]
    unfold packBytes
    split
    · have hi : cursor / 2 < buf.length := by omega
      obtain ⟨buf', pad', h, hlen⟩ := ih (buf.set (cursor / 2) (pad ||| x.toUInt16)) (cursor + 1) 0
        (by simpa using hbuf) (by omega)
      exact ⟨buf', pad', by simp only [writeWord, hi, if_true, bind, Except.bind, h], by simpa using hlen⟩
    · exact ih buf (cursor + 1) (pad ||| (x.toUInt16 <<< 8)) hbuf (by omega)

/-- **`writeBurstBufferBytes` stays inside the buffer**: from a sane buffer it
returns a sane buffer of the same size, every access in bounds. -/
theorem writeBurstBufferBytes_ok (h : b.Sane) (bytes : List UInt8) :
    ∃ b', b.writeBurstBufferBytes bytes = .ok b' ∧ b'.Sane ∧
      b'.burstBufferSizeBytes = b.burstBufferSizeBytes := by
  unfold writeBurstBufferBytes
  split
  · exact ⟨_, rfl, h.clearBurstBuffer, rfl⟩
  rename_i hover
  rw [wouldOverflowBuffer_iff h.size_lt, not_lt] at hover
  split
  · exact ⟨_, rfl, h, rfl⟩
  rename_i hne
  have hlt : b.byteCursor / 2 < b.burstBuffer.length := by have := h.words; omega
  obtain ⟨buf', pad', hpack, hlen⟩ :=
    packBytes_ok bytes b.burstBuffer b.byteCursor (b.burstBuffer[b.byteCursor / 2]) h.words hover
  simp only [readWord, List.getElem?_eq_getElem hlt, bind, Except.bind, hpack]
  split
  · have hi : (b.byteCursor + bytes.length) / 2 < buf'.length := by have := h.words; omega
    exact ⟨{ b with burstBuffer := buf'.set _ pad', byteCursor := _ },
      by simp only [writeWord, hi, if_true]; rfl, ⟨by simpa [hlen] using h.words, h.size_lt, hover⟩, rfl⟩
  · exact ⟨{ b with burstBuffer := buf', byteCursor := _ }, rfl,
      ⟨by simpa [hlen] using h.words, h.size_lt, hover⟩, rfl⟩

end Burst

theorem copyWords_ok {buf : List UInt16} {i : ℕ} {ws : List UInt16} (h : i + ws.length ≤ buf.length) :
    ∃ buf', copyWords buf i ws = .ok buf' ∧ buf'.length = buf.length :=
  ⟨_, if_pos h, by simp; omega⟩

namespace Enc

variable {σ : Type} (fr : FrameScanner σ) (writeOutput : List (List UInt8) → List UInt8 → ℤ)

/-- **The encoder's invariant**: a sane burst buffer of the size the constructor
gave it. -/
structure Sane (e : Enc σ) : Prop where
  burst : e.burst.Sane
  size : e.burst.burstBufferSizeBytes =
    2 * kSpdifEncodedChannelCount * fr.getMaxSampleFramesPerSyncFrame

/-- The result of a call from a sane encoder: no access out of bounds, and a
sane encoder if it returns. -/
def Safe : Except Fault (Enc σ) → Prop
  | .ok e => Sane fr e
  | .error f => f = .noProgress

variable {fr} {e : Enc σ}

theorem Safe.bind {r : Except Fault (Enc σ)} {f : Enc σ → Except Fault (Enc σ)} (hr : Safe fr r)
    (hf : ∀ e, Sane fr e → Safe fr (f e)) : Safe fr (r >>= f) := by
  cases r with
  | error x => exact hr
  | ok e => exact hf e hr

theorem Sane.reset (h : Sane fr e) : Sane fr (reset fr e) := ⟨h.burst.clearBurstBuffer, h.size⟩

theorem Sane.with_burst {b : Burst} (h : Sane fr e) (hb : b.Sane)
    (hs : b.burstBufferSizeBytes = e.burst.burstBufferSizeBytes) : Sane fr { e with burst := b } :=
  ⟨hb, hs.trans h.size⟩

/-- `writeBurstBufferShorts` stays inside the buffer. -/
theorem writeBurstBufferShorts_ok (h : Sane fr e) (ws : List UInt16) :
    ∃ e', writeBurstBufferShorts fr e ws = .ok e' ∧ Sane fr e' := by
  have hw := h.burst.words
  have hc := h.burst.cursor_le
  have hb : ({ e.burst with byteCursor := (e.burst.byteCursor + 1) / 2 * 2 } : Burst).Sane :=
    ⟨hw, h.burst.size_lt, by simp only; omega⟩
  unfold writeBurstBufferShorts
  dsimp only
  split
  · exact ⟨_, rfl, (h.with_burst hb rfl).reset⟩
  rename_i hover
  rw [Burst.wouldOverflowBuffer_iff hb.size_lt, not_lt] at hover
  simp only at hover
  obtain ⟨buf', hcopy, hlen⟩ := copyWords_ok (show (e.burst.byteCursor + 1) / 2 * 2 / 2 + ws.length ≤
    e.burst.burstBuffer.length by omega)
  simp only [hcopy, bind, Except.bind, pure, Except.pure]
  exact ⟨_, rfl, h.with_burst ⟨by simp only; omega, h.burst.size_lt, by simp only; omega⟩ rfl⟩

/-- The output loop passes `writeOutput` only bytes of the buffer. -/
theorem writeLoop_safe (e : Enc σ) (bytesWritten : ℕ) (h : Sane fr e) :
    Safe fr (writeLoop writeOutput e bytesWritten) := by
  rw [writeLoop]
  split
  · rename_i hlt
    have hrange : bytesWritten + (e.burst.byteCursor - bytesWritten) ≤ 2 * e.burst.burstBuffer.length := by
      have := h.burst.words; have := h.burst.cursor_le; omega
    simp only [readBytes, hrange, if_true]
    have h' : Sane fr { e with outputs := e.outputs ++ [((bufferBytes e.burst.burstBuffer).drop
        bytesWritten).take (e.burst.byteCursor - bytesWritten)] } := ⟨h.burst, h.size⟩
    split
    · exact h'
    split
    · rfl
    · exact writeLoop_safe _ _ h'
  · exact h
termination_by e.burst.byteCursor - bytesWritten
decreasing_by simp_wf; omega

section Scanner

variable (hfr : ∀ s, fr.getSampleFramesPerSyncFrame s ≤ fr.getMaxSampleFramesPerSyncFrame)
include hfr

/-- `sendZeroPad` keeps the cursor inside: a burst is never longer than the
buffer. -/
theorem Sane.sendZeroPad (h : Sane fr e) : Sane fr (sendZeroPad fr e) := by
  unfold Enc.sendZeroPad
  dsimp only
  split
  · exact h.with_burst h.burst.clearBurstBuffer rfl
  · refine h.with_burst ⟨h.burst.words, h.burst.size_lt, ?_⟩ rfl
    have := h.size; have := hfr e.framer; simp only [kSpdifEncodedChannelCount] at *; omega

/-- `flushBurstBuffer` writes word 3 only when the buffer holds more than the
preamble, so inside the buffer. -/
theorem flushBurstBuffer_safe (h : Sane fr e) : Safe fr (flushBurstBuffer fr writeOutput e) := by
  unfold flushBurstBuffer
  split
  · rename_i hgt
    have h3 : 3 < e.burst.burstBuffer.length := by
      have := h.burst.words; have := h.burst.cursor_le; omega
    simp only [writeWord, h3, if_true, bind, Except.bind]
    exact Safe.bind (writeLoop_safe writeOutput _ 0
      (Sane.sendZeroPad hfr (h.with_burst ⟨by simpa using h.burst.words, h.burst.size_lt,
        h.burst.cursor_le⟩ rfl))) fun e he => he.reset
  · exact h.reset

end Scanner

theorem Sane.of_burst {e' : Enc σ} (h : Sane fr e) (hb : e'.burst.Sane)
    (hs : e'.burst.burstBufferSizeBytes = e.burst.burstBufferSizeBytes) : Sane fr e' :=
  ⟨hb, hs.trans h.size⟩

theorem startDataBurst_ok (h : Sane fr e) : ∃ e', startDataBurst fr e = .ok e' ∧ Sane fr e' :=
  writeBurstBufferShorts_ok
    (show Sane fr { e with rateMultiplier := fr.getRateMultiplier e.framer } from ⟨h.burst, h.size⟩) _

theorem startDataBurst_safe (h : Sane fr e) : Safe fr (startDataBurst fr e) := by
  obtain ⟨e', he', hs⟩ := startDataBurst_ok h; rw [he']; exact hs

theorem startSyncFrame_ok (h : Sane fr e) :
    ∃ e' pending, startSyncFrame fr e = .ok (e', pending) ∧ Sane fr e' := by
  obtain ⟨b, hb, hsane, hsize⟩ := e.burst.writeBurstBufferBytes_ok h.burst (fr.header e.framer)
  unfold startSyncFrame
  simp only [hb, bind, Except.bind]
  split <;> exact ⟨_, _, rfl, h.with_burst hsane hsize⟩

/-- What follows `startSyncFrame` runs from a sane encoder. -/
theorem Safe.startSyncFrame_bind {f : Enc σ × ℕ → Except Fault (Enc σ)} (h : Sane fr e)
    (hf : ∀ e' pending, Sane fr e' → Safe fr (f (e', pending))) :
    Safe fr (startSyncFrame fr e >>= f) := by
  obtain ⟨e', p, hs, he'⟩ := startSyncFrame_ok h
  rw [hs]; exact hf e' p he'

theorem apply_write (data : List UInt8) :
    apply fr writeOutput e (.write data) = writeData fr writeOutput e data := by
  simp only [apply, write]; cases writeData fr writeOutput e data <;> rfl

section Scanner

variable (hfr : ∀ s, fr.getSampleFramesPerSyncFrame s ≤ fr.getMaxSampleFramesPerSyncFrame)
include hfr

/-- **`write` never leaves the buffer**: every path of the loop, for every
scanner behaviour, keeps the encoder sane. -/
theorem writeData_safe (e : Enc σ) (data : List UInt8) (h : Sane fr e) :
    Safe fr (writeData fr writeOutput e data) := by
  induction e, data using writeData.induct fr writeOutput with
  | case1 e => rw [writeData]; exact h
  | case2 e x rest hs framer e₁ hz hsc ih =>
    rw [writeData.eq_2, if_pos hs, hsc]
    dsimp only
    rw [if_pos rfl, if_pos (show e.burst.byteCursor = 0 from hz)]
    exact Safe.bind (startDataBurst_safe (h.of_burst h.burst rfl)) fun _ hy =>
      Safe.startSyncFrame_bind hy fun e' p h' => ih e' p (h'.of_burst h'.burst rfl)
  | case3 e x rest hs framer e₁ hz hf hsc ih =>
    rw [writeData.eq_2, if_pos hs, hsc]
    dsimp only
    rw [if_pos rfl, if_neg (show ¬e.burst.byteCursor = 0 from hz), if_pos hf]
    exact Safe.bind (flushBurstBuffer_safe writeOutput hfr (h.of_burst h.burst rfl)) fun _ h₃ =>
      Safe.bind (startDataBurst_safe h₃) fun _ hy =>
        Safe.startSyncFrame_bind hy fun e' p h' => ih e' p (h'.of_burst h'.burst rfl)
  | case4 e x rest hs framer e₁ hz hf hsc ih =>
    rw [writeData.eq_2, if_pos hs, hsc]
    dsimp only
    rw [if_pos rfl, if_neg (show ¬e.burst.byteCursor = 0 from hz), if_neg hf]
    exact Safe.bind (h.of_burst h.burst rfl) fun _ hy =>
      Safe.startSyncFrame_bind hy fun e' p h' => ih e' p (h'.of_burst h'.burst rfl)
  | case5 e x rest hs framer found hsc e₁ hfound ih =>
    rw [writeData.eq_2, if_pos hs, hsc]
    dsimp only
    rw [if_neg hfound]
    exact ih (h.of_burst h.burst rfl)
  | case6 e x rest hs n f hf =>
    obtain ⟨b, hb, -⟩ := e.burst.writeBurstBufferBytes_ok h.burst ((x :: rest).take n)
    exact absurd (hb.symm.trans hf) nofun
  | case7 e x rest hs n b hb e₁ hp hl ih =>
    obtain ⟨b', hb', hsane, hsize⟩ := e.burst.writeBurstBufferBytes_ok h.burst ((x :: rest).take n)
    obtain rfl : b' = b := Except.ok.inj (hb'.symm.trans hb)
    rw [writeData.eq_2, if_neg hs]
    dsimp only
    rw [hb]
    dsimp only
    rw [if_pos (show e.payloadBytesPending - n = 0 from hp), if_pos hl]
    exact Safe.bind (flushBurstBuffer_safe writeOutput hfr (h.of_burst hsane hsize)) fun e₂ h₂ =>
      ih e₂ (h₂.of_burst h₂.burst rfl)
  | case8 e x rest hs n b hb e₁ hp hl ih =>
    obtain ⟨b', hb', hsane, hsize⟩ := e.burst.writeBurstBufferBytes_ok h.burst ((x :: rest).take n)
    obtain rfl : b' = b := Except.ok.inj (hb'.symm.trans hb)
    rw [writeData.eq_2, if_neg hs]
    dsimp only
    rw [hb]
    dsimp only
    rw [if_pos (show e.payloadBytesPending - n = 0 from hp), if_neg hl]
    exact Safe.bind (h.of_burst hsane hsize) fun e₂ h₂ => ih e₂ (h₂.of_burst h₂.burst rfl)
  | case9 e x rest hs n b hb e₁ hp ih =>
    obtain ⟨b', hb', hsane, hsize⟩ := e.burst.writeBurstBufferBytes_ok h.burst ((x :: rest).take n)
    obtain rfl : b' = b := Except.ok.inj (hb'.symm.trans hb)
    rw [writeData.eq_2, if_neg hs]
    dsimp only
    rw [hb]
    dsimp only
    rw [if_neg (show ¬e.payloadBytesPending - n = 0 from hp)]
    exact ih (h.of_burst hsane hsize)

/-- **Every call from a sane encoder stays inside the buffer.** -/
theorem apply_safe (h : Sane fr e) (c : Call) : Safe fr (apply fr writeOutput e c) := by
  cases c with
  | write data => rw [apply_write]; exact writeData_safe writeOutput hfr e data h
  | flushBurstBuffer => exact flushBurstBuffer_safe writeOutput hfr h
  | reset => exact h.reset

theorem Reach.sane (hmax : 2 * kSpdifEncodedChannelCount * fr.getMaxSampleFramesPerSyncFrame < 2 ^ 64)
    (h : Reach fr writeOutput e) : Sane fr e := by
  induction h with
  | new s =>
    refine ⟨⟨?_, hmax, Nat.zero_le _⟩, rfl⟩
    simp [Enc.new, Burst.clearBurstBuffer, kSpdifEncodedChannelCount]; omega
  | step c _ happ ih =>
    have := apply_safe writeOutput hfr ih c
    rwa [happ] at this

end Scanner

theorem Safe.ne_outOfBounds {r : Except Fault (Enc σ)} (h : Safe fr r) : r ≠ .error .outOfBounds := by
  rintro rfl; cases h

/-- **The burst buffer's bounds.** For every scanner that never reports more
sample frames per sync frame than its maximum, and every `writeOutput`, each
encoder reached by `write`, `flushBurstBuffer` and `reset` calls has
`mBurstBufferSizeBytes / 2` words and `mByteCursor <= mBurstBufferSizeBytes`;
`wouldOverflowBuffer(n)` is `mByteCursor + n > mBurstBufferSizeBytes`; and no
call from it reads or writes outside the buffer. -/
theorem spdif_buffer_bounds
    (hfr : ∀ s, fr.getSampleFramesPerSyncFrame s ≤ fr.getMaxSampleFramesPerSyncFrame)
    (hmax : 2 * kSpdifEncodedChannelCount * fr.getMaxSampleFramesPerSyncFrame < 2 ^ 64)
    (h : Reach fr writeOutput e) :
    2 * e.burst.burstBuffer.length = e.burst.burstBufferSizeBytes ∧
      e.burst.byteCursor ≤ e.burst.burstBufferSizeBytes ∧
      (∀ n, e.burst.wouldOverflowBuffer n = true ↔
        e.burst.burstBufferSizeBytes < e.burst.byteCursor + n) ∧
      ∀ c, apply fr writeOutput e c ≠ .error .outOfBounds := by
  have hs := h.sane writeOutput hfr hmax
  exact ⟨hs.burst.words, hs.burst.cursor_le, Burst.wouldOverflowBuffer_iff hs.burst.size_lt,
    fun c => (apply_safe writeOutput hfr hs c).ne_outOfBounds⟩

end Enc

/-! ## Runs on a made-up stream -/

/-- A scanner for a made-up format: a frame starts at byte `0xAA`, its whole
header; every frame is 19 bytes and alone in a burst of 4 sample frames, so
the burst buffer has 16 bytes. -/
def toyScanner : FrameScanner Unit where
  scan _ x := ((), x == 0xAA)
  header _ := [0xAA]
  getFrameSizeBytes _ := 19
  isFirstInBurst _ := true
  isLastInBurst _ := true
  getSampleFramesPerSyncFrame _ := 4
  getMaxSampleFramesPerSyncFrame := 4
  getDataTypeInfo _ := 0
  getDataType _ := 1
  getRateMultiplier _ := 1
  convertBytesToLengthCode _ n := n * 8
  resetBurst _ := ()

/-- A `writeOutput` that takes every byte it is given. -/
def acceptAll (_ : List (List UInt8)) (bytes : List UInt8) : ℤ := bytes.length

theorem spdif_buffer_bounds_new :
    2 * (Enc.new toyScanner ()).burst.burstBuffer.length =
        (Enc.new toyScanner ()).burst.burstBufferSizeBytes ∧
      (Enc.new toyScanner ()).burst.byteCursor ≤ (Enc.new toyScanner ()).burst.burstBufferSizeBytes ∧
      (∀ n, (Enc.new toyScanner ()).burst.wouldOverflowBuffer n = true ↔
        (Enc.new toyScanner ()).burst.burstBufferSizeBytes < (Enc.new toyScanner ()).burst.byteCursor + n) ∧
      ∀ c, Enc.apply toyScanner acceptAll (Enc.new toyScanner ()) c ≠ .error .outOfBounds :=
  Enc.spdif_buffer_bounds acceptAll (fun _ => le_refl _) (by decide) (.new ())

/-- The header byte and 8 payload bytes, then the 10 last payload bytes. -/
def splitFrame : List (List UInt8) := [0xAA :: List.replicate 8 0, List.replicate 10 0]

unseal Enc.writeData Enc.writeLoop in
/-- **An overflow inside a frame leaves a burst without its preamble.** The
first payload write (8 bytes at cursor 9 of 16) overflows and only clears the
buffer; the frame goes on, its last 10 bytes land at offset 0, and the flush
hands `writeOutput` a 16-byte burst whose words 0 and 1 are payload, not the
little-endian `Pa Pb` bytes `72 F8 1F 4E`. -/
theorem spdif_overflow_burst_unsynced :
    ((Enc.apply toyScanner acceptAll (Enc.new toyScanner ()) (.write (splitFrame.getD 0 [])) >>= fun e =>
        Enc.apply toyScanner acceptAll e (.write (splitFrame.getD 1 []))).toOption.map Enc.outputs =
      some [[0, 0, 0, 0, 0, 0, 16, 0, 0, 0, 0, 0, 0, 0, 0, 0]]) ∧
      bufferBytes [kSpdifSync1, kSpdifSync2] = [0x72, 0xF8, 0x1F, 0x4E] := by
  decide

unseal Enc.writeData Enc.writeLoop in
/-- **Splitting a write changes the output.** The same 19 bytes in one `write`
overflow at once and are dropped with no output; split as in
`spdif_overflow_burst_unsynced`, they give one burst. -/
theorem spdif_split_changes_output :
    (Enc.apply toyScanner acceptAll (Enc.new toyScanner ()) (.write splitFrame.flatten)).toOption.map
        Enc.outputs = some [] ∧
      ((Enc.apply toyScanner acceptAll (Enc.new toyScanner ()) (.write (splitFrame.getD 0 [])) >>= fun e =>
        Enc.apply toyScanner acceptAll e (.write (splitFrame.getD 1 []))).toOption.map Enc.outputs =
      some [[0, 0, 0, 0, 0, 0, 16, 0, 0, 0, 0, 0, 0, 0, 0, 0]]) := by
  decide

end AudioUtils
