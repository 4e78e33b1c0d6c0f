import AudioUtils.Proof.SpdifStream

/-!
# How the input of `write` is cut does not matter

When every frame is the last of its burst and fits the buffer with the preamble,
every reachable encoder `Streams`: at the start of a burst while it scans for a
frame, with room for the rest of the frame while it packs one. From such an
encoder, `write` of `xs ++ ys` is `write` of `xs`, then `write` of `ys`
(`write_append`), whatever `writeOutput` does: the same encoder, the same
outputs, the same fault.

Each pass of `write`'s loop reads one byte while it scans, so the cut can only
fall inside a payload. There the loop packs what it has and carries the rest of
the frame over (`writeData_short`); `writeBurstBufferBytes_append` makes the
two packings one.

`LoopSteps.writeData` is the induction over `write`'s loop, done once: a
property of the encoder that starting a frame, moving the scanner on, packing
payload and flushing keep holds after the loop, and so does `Streams`.
-/

namespace AudioUtils

/-- **A scanner whose frames each make a burst of their own**: every frame is
the last of its burst, its header is part of it, and the frame fits the buffer
after the preamble. -/
structure FrameScanner.OwnBursts {σ : Type} (fr : FrameScanner σ) : Prop where
  last : ∀ s, fr.isLastInBurst s = true
  header_le : ∀ s, (fr.header s).length ≤ fr.getFrameSizeBytes s
  fits : ∀ s, 8 + fr.getFrameSizeBytes s ≤
    2 * kSpdifEncodedChannelCount * fr.getMaxSampleFramesPerSyncFrame

namespace Enc

variable {σ : Type} {fr : FrameScanner σ} {writeOutput : List (List UInt8) → List UInt8 → ℤ}
  {e e' : Enc σ}

/-- **What `write` keeps when each frame makes a burst of its own**: a packed
buffer of the constructor's size, at the start of a burst while scanning, with
room for the rest of the frame. -/
structure Streams (fr : FrameScanner σ) (e : Enc σ) : Prop where
  packed : e.burst.Packed
  size : e.burst.burstBufferSizeBytes = 2 * kSpdifEncodedChannelCount * fr.getMaxSampleFramesPerSyncFrame
  cursor : e.scanning = true → e.burst.byteCursor = 0
  room : e.burst.byteCursor + e.payloadBytesPending ≤ e.burst.burstBufferSizeBytes

theorem sendZeroPad_size :
    (sendZeroPad fr e).burst.burstBufferSizeBytes = e.burst.burstBufferSizeBytes := by
  unfold sendZeroPad; dsimp only; split <;> rfl

variable (fr writeOutput) in
/-- `flushBurstBuffer` ends, when it returns, in `reset()` of a buffer of the
same size. -/
theorem flushBurstBuffer_cleared (e : Enc σ) :
    Returns (fun e' => e'.burst.burstBufferSizeBytes = e.burst.burstBufferSizeBytes ∧
        e'.burst.byteCursor = 0 ∧ e'.payloadBytesPending = 0 ∧ e'.scanning = true)
      (fun _ => True) (flushBurstBuffer fr writeOutput e) := by
  unfold flushBurstBuffer
  split
  · exact Returns.bind_of (fun _ => trivial) fun _ =>
      Returns.bind (writeLoop_burst writeOutput _ 0) fun _ he => ⟨by
        rw [reset, Burst.clearBurstBuffer_size, he, sendZeroPad_size], rfl, rfl, rfl⟩
  · exact ⟨rfl, rfl, rfl, rfl⟩

/-- What `flushBurstBuffer` returns streams, scanning or not. -/
theorem Streams.flush (h : Streams fr e) (he : flushBurstBuffer fr writeOutput e = .ok e')
    (sc : Bool) : Streams fr { e' with scanning := sc } := by
  have hp : KeepsPacked id (flushBurstBuffer fr writeOutput e) :=
    flushBurstBuffer_packed writeOutput h.packed
  have hc := flushBurstBuffer_cleared fr writeOutput e
  rw [he] at hp hc
  obtain ⟨hs, h0, hn, -⟩ := hc
  exact ⟨hp, hs.trans h.size, fun _ => h0, by simp only [h0, hn]; omega⟩

/-- Packing payload bytes the frame has room for keeps the encoder streaming. -/
theorem Streams.pack (h : Streams fr e) (hs : e.scanning = false) {d : List UInt8} {b : Burst}
    (hb : e.burst.writeBurstBufferBytes d = .ok b) (p : ℕ) (hp : p + d.length ≤ e.payloadBytesPending) :
    Streams fr { e with burst := b, payloadBytesPending := p } := by
  have hr := h.room
  obtain ⟨b', hb', hs', hc', hl', hy'⟩ := Burst.writeBurstBufferBytes_spec h.packed (d := d) (by omega)
  obtain rfl : b' = b := Except.ok.inj (hb'.symm.trans hb)
  exact ⟨h.packed.of_spec hs' hc' hl' hy', hs'.trans h.size, fun h' => absurd (hs.symm.trans h') nofun,
    by simp only [hc', hs']; omega⟩

/-- A payload packing with room for it does not fail. -/
theorem Streams.writeBurstBufferBytes_ne_error (h : Streams fr e) {d : List UInt8}
    (hd : d.length ≤ e.payloadBytesPending) (f : Fault) : e.burst.writeBurstBufferBytes d ≠ .error f := by
  have hr := h.room
  obtain ⟨b, hb, -⟩ := Burst.writeBurstBufferBytes_spec h.packed (d := d) (by omega)
  rw [hb]
  exact nofun

/-- A header found while scanning at the start of a burst: `write`'s loop packs
the preamble and the header, and goes on with the payload, with room for it. -/
theorem writeData_sync (hfr : fr.OwnBursts) (h : Streams fr e) (hs : e.scanning = true) {x : UInt8}
    {s₁ : σ} (hf : fr.scan e.framer x = (s₁, true)) :
    ∃ (b : Burst) (p : ℕ), b.Holds (fr.burstInfo e.bitstreamNumber s₁) (fr.header s₁) ∧
      Streams fr { e with
        framer := s₁, rateMultiplier := fr.getRateMultiplier s₁, burst := b,
        payloadBytesPending := p, scanning := false } ∧
      ∀ rest, writeData fr writeOutput e (x :: rest) = writeData fr writeOutput { e with
        framer := s₁, rateMultiplier := fr.getRateMultiplier s₁, burst := b,
        payloadBytesPending := p, scanning := false } rest := by
  have h0 := h.cursor hs
  have hsz := h.size
  have hF := hfr.fits s₁
  have hH := hfr.header_le s₁
  obtain ⟨b₁, h1, hs₁, hb₁⟩ := startDataBurst_holds fr (e := { e with framer := s₁ }) h.packed h0
    (by simp only; omega)
  dsimp only at h1 hs₁
  obtain ⟨b₂, h2, hs₂, hb₂⟩ := startSyncFrame_holds fr
    (e := { e with framer := s₁, rateMultiplier := fr.getRateMultiplier s₁, burst := b₁ }) hb₁
    (by simp only [List.length_nil]; omega)
  dsimp only at h2 hs₂
  rw [List.nil_append] at hb₂
  have hc₂ := hb₂.cursor
  refine ⟨b₂, fr.getFrameSizeBytes s₁ - (fr.header s₁).length, hb₂,
    ⟨hb₂.packed, by rw [hs₂, hs₁, hsz], nofun, by simp only [hc₂, hs₂, hs₁]; omega⟩, fun rest => ?_⟩
  rw [← List.nil_append (x :: rest), writeData_found hs h0
    (show fr.findHeader e.framer [] x = some s₁ by simp [FrameScanner.findHeader, hf]) rest, h1]
  simp only [bind, Except.bind, h2]

/-- A byte that is not a header, while scanning: the scanner moves on. -/
theorem writeData_skip (hs : e.scanning = true) {x : UInt8} {s : σ} {found : Bool}
    (hf : fr.scan e.framer x = (s, found)) (hn : ¬found = true) (rest : List UInt8) :
    writeData fr writeOutput e (x :: rest) = writeData fr writeOutput { e with framer := s } rest := by
  rw [writeData.eq_2, if_pos hs, hf]
  dsimp only
  rw [if_neg hn]

variable (writeOutput) in
/-- The pass that ends a frame, the last of its burst: `write`'s loop packs the
rest of the payload, flushes the burst, and scans the bytes after it. -/
theorem writeData_last (hs : ¬e.scanning = true) {x : UInt8} {rest : List UInt8} {b : Burst}
    (hb : e.burst.writeBurstBufferBytes ((x :: rest).take (min (x :: rest).length e.payloadBytesPending)) =
      .ok b)
    (hp : e.payloadBytesPending - min (x :: rest).length e.payloadBytesPending = 0)
    (hl : fr.isLastInBurst e.framer = true) (zs : List UInt8) :
    writeData fr writeOutput e (x :: rest ++ zs) =
      (flushBurstBuffer fr writeOutput { e with burst := b, payloadBytesPending := 0 } >>= fun e' =>
        writeData fr writeOutput { e' with scanning := true }
          ((x :: rest).drop (min (x :: rest).length e.payloadBytesPending) ++ zs)) := by
  have hle : e.payloadBytesPending ≤ (x :: rest).length := by omega
  have hmin : min (x :: (rest ++ zs)).length e.payloadBytesPending = e.payloadBytesPending := by
    simp only [List.length_cons, List.length_append] at hle ⊢; omega
  rw [min_eq_right hle] at hb ⊢
  rw [List.cons_append, writeData.eq_2, if_neg hs]
  dsimp only
  rw [hmin, ← List.cons_append, List.take_append_of_le_length hle, hb]
  dsimp only
  rw [Nat.sub_self, if_pos rfl, if_pos hl, List.drop_append_of_le_length hle]

variable (writeOutput) in
/-- A pass that packs all the bytes left, before the end of the frame: the rest
of the frame comes from the bytes after the cut. -/
theorem writeData_short (h : Streams fr e) (hs : ¬e.scanning = true) {x : UInt8} {rest : List UInt8}
    {b : Burst}
    (hb : e.burst.writeBurstBufferBytes ((x :: rest).take (min (x :: rest).length e.payloadBytesPending)) =
      .ok b)
    (hp : ¬e.payloadBytesPending - min (x :: rest).length e.payloadBytesPending = 0) (zs : List UInt8) :
    writeData fr writeOutput e (x :: rest ++ zs) = writeData fr writeOutput
      { e with burst := b, payloadBytesPending := e.payloadBytesPending - (x :: rest).length } zs := by
  have hlt : (x :: rest).length < e.payloadBytesPending := by omega
  rw [min_eq_left hlt.le, List.take_of_length_le le_rfl] at hb
  cases zs with
  | nil =>
    rw [List.append_nil, writeData.eq_2, if_neg hs]
    dsimp only
    rw [min_eq_left hlt.le, List.take_of_length_le le_rfl, hb]
    dsimp only
    rw [if_neg (by omega), List.drop_of_length_le le_rfl]
  | cons y ys =>
    have hr := h.room
    have hk : min (x :: (rest ++ y :: ys)).length e.payloadBytesPending =
        (x :: rest).length + min (y :: ys).length (e.payloadBytesPending - (x :: rest).length) := by
      simp only [List.length_cons, List.length_append] at hlt ⊢; omega
    rw [List.cons_append, writeData.eq_2, writeData.eq_2 _ _ _ y]
    dsimp only
    rw [if_neg hs, if_neg hs, hk, ← List.cons_append, List.take_append, List.drop_append,
      Burst.writeBurstBufferBytes_append h.packed (by simp only [List.length_take]; omega), hb]
    simp only [bind, Except.bind, Nat.sub_sub]

section Loop

variable (P : Enc σ → Prop)

/-- What a property of the encoder must survive to hold across `write`'s loop,
for a scanner whose frames make bursts of their own: starting a frame at the
start of a burst, the scanner moving on, a payload packing with room for it, and
the flush after the last frame of a burst. -/
structure LoopSteps (fr : FrameScanner σ) (writeOutput : List (List UInt8) → List UInt8 → ℤ) : Prop where
  sync : ∀ (e : Enc σ) (s₁ : σ) (b : Burst) (p : ℕ), Streams fr e → P e → e.scanning = true →
    b.Holds (fr.burstInfo e.bitstreamNumber s₁) (fr.header s₁) →
    P { e with
      framer := s₁, rateMultiplier := fr.getRateMultiplier s₁, burst := b,
      payloadBytesPending := p, scanning := false }
  skip : ∀ (e : Enc σ) (s : σ), P e → e.scanning = true → P { e with framer := s }
  pack : ∀ (e : Enc σ) (d : List UInt8) (b : Burst) (p : ℕ), Streams fr e → P e → e.scanning = false →
    e.burst.writeBurstBufferBytes d = .ok b → p + d.length ≤ e.payloadBytesPending →
    P { e with burst := b, payloadBytesPending := p }
  flush : ∀ e e' : Enc σ, Streams fr e → P e → e.scanning = false →
    flushBurstBuffer fr writeOutput e = .ok e' → P { e' with scanning := true }

variable {P}

/-- **`write`'s loop keeps what its steps keep**, and keeps the encoder
streaming; one case a branch of the loop. -/
theorem LoopSteps.writeData (hP : LoopSteps P fr writeOutput) (hfr : fr.OwnBursts) (e : Enc σ)
    (xs : List UInt8) (h : Streams fr e) (he : P e) :
    ∀ e', writeData fr writeOutput e xs = .ok e' → Streams fr e' ∧ P e' := by
  induction e, xs using writeData.induct fr writeOutput with
  | case1 e => intro e' hw; rw [writeData.eq_1] at hw; cases hw; exact ⟨h, he⟩
  | case2 e x rest hs framer e₁ hz hsc ih =>
    obtain ⟨b, p, hb, hX, hw⟩ := writeData_sync hfr h hs hsc
    intro e' hw'
    rw [hw] at hw'
    exact ih { e with framer, rateMultiplier := fr.getRateMultiplier framer, burst := b } p hX
      (hP.sync e framer b p h he hs hb) e' hw'
  | case3 e x rest hs framer e₁ hz => exact absurd (h.cursor hs) hz
  | case4 e x rest hs framer e₁ hz => exact absurd (h.cursor hs) hz
  | case5 e x rest hs framer found hsc e₁ hfound ih =>
    intro e' hw
    rw [writeData_skip hs hsc hfound] at hw
    exact ih ⟨h.packed, h.size, h.cursor, h.room⟩ (hP.skip e framer he hs) e' hw
  | case6 e x rest hs n f hf =>
    exact absurd hf (h.writeBurstBufferBytes_ne_error
      (by rw [List.length_take]; show min (min _ _) _ ≤ _; omega) f)
  | case7 e x rest hs n b hb e₁ hp hl ih =>
    have hs' : e.scanning = false := by simpa using hs
    have hd : 0 + ((x :: rest).take n).length ≤ e.payloadBytesPending := by
      rw [List.length_take]; show _ + min (min _ _) _ ≤ _; omega
    have h0 := writeData_last writeOutput hs hb hp hl []
    simp only [List.append_nil] at h0
    intro e' hw
    rw [h0] at hw
    cases hf : flushBurstBuffer fr writeOutput { e with burst := b, payloadBytesPending := 0 } with
    | error f => rw [hf] at hw; cases hw
    | ok e₄ =>
      rw [hf] at hw
      have hX := h.pack hs' hb 0 hd
      exact ih e₄ (hX.flush hf true) (hP.flush _ e₄ hX (hP.pack e _ b 0 h he hs' hb hd) hs' hf) e' hw
  | case8 e x rest hs n b hb e₁ hp hl => exact absurd (hfr.last _) hl
  | case9 e x rest hs n b hb e₁ hp =>
    have hs' : e.scanning = false := by simpa using hs
    have hd : e.payloadBytesPending - (x :: rest).length + ((x :: rest).take n).length ≤
        e.payloadBytesPending := by
      have hp' : ¬e.payloadBytesPending - min (x :: rest).length e.payloadBytesPending = 0 := hp
      rw [List.length_take]; show _ + min (min _ _) _ ≤ _; omega
    intro e' hw
    rw [← List.append_nil (x :: rest), writeData_short writeOutput h hs hb hp, writeData.eq_1] at hw
    cases hw
    exact ⟨h.pack hs' hb _ hd, hP.pack e _ b _ h he hs' hb hd⟩

end Loop

/-- **Every reachable encoder streams** when each frame makes a burst of its
own. -/
theorem Reach.streams (hfr : fr.OwnBursts)
    (hmax : 2 * kSpdifEncodedChannelCount * fr.getMaxSampleFramesPerSyncFrame < 2 ^ 64)
    (h : Reach fr writeOutput e) : Streams fr e := by
  induction h with
  | new s => exact ⟨(Reach.new s).packed writeOutput hmax, rfl, fun _ => rfl, Nat.zero_le _⟩
  | step c _ happ ih =>
    cases c with
    | write data =>
      rw [apply_write] at happ
      exact ((show LoopSteps (fun _ => True) fr writeOutput from
        ⟨fun _ _ _ _ _ _ _ _ => trivial, fun _ _ _ _ => trivial, fun _ _ _ _ _ _ _ _ _ => trivial,
          fun _ _ _ _ _ _ => trivial⟩).writeData hfr _ data ih trivial _ happ).1
    | flushBurstBuffer => exact ih.flush happ _
    | reset =>
      cases happ
      exact ⟨reset_packed ih.packed, ih.size, fun _ => rfl, by simp [reset, Burst.clearBurstBuffer]⟩

variable (writeOutput) in
/-- The induction of `write_append`, one case a branch of `write`'s loop. -/
theorem Streams.writeData_append (hfr : fr.OwnBursts) (e : Enc σ) (xs ys : List UInt8)
    (h : Streams fr e) :
    writeData fr writeOutput e (xs ++ ys) =
      (writeData fr writeOutput e xs >>= fun e' => writeData fr writeOutput e' ys) := by
  induction e, xs using writeData.induct fr writeOutput with
  | case1 e => rw [List.nil_append, writeData.eq_1]; rfl
  | case2 e x rest hs framer e₁ hz hsc ih =>
    obtain ⟨b, p, -, hX, hw⟩ := writeData_sync hfr h hs hsc
    rw [List.cons_append, hw, hw,
      ih { e with framer, rateMultiplier := fr.getRateMultiplier framer, burst := b } p hX]
  | case3 e x rest hs framer e₁ hz => exact absurd (h.cursor hs) hz
  | case4 e x rest hs framer e₁ hz => exact absurd (h.cursor hs) hz
  | case5 e x rest hs framer found hsc e₁ hfound ih =>
    rw [List.cons_append, writeData_skip hs hsc hfound, writeData_skip hs hsc hfound,
      ih ⟨h.packed, h.size, h.cursor, h.room⟩]
  | case6 e x rest hs n f hf =>
    exact absurd hf (h.writeBurstBufferBytes_ne_error
      (by rw [List.length_take]; show min (min _ _) _ ≤ _; omega) f)
  | case7 e x rest hs n b hb e₁ hp hl ih =>
    have hs' : e.scanning = false := by simpa using hs
    have hd : 0 + ((x :: rest).take n).length ≤ e.payloadBytesPending := by
      rw [List.length_take]; show _ + min (min _ _) _ ≤ _; omega
    have h0 := writeData_last writeOutput hs hb hp hl []
    simp only [List.append_nil] at h0
    rw [writeData_last writeOutput hs hb hp hl ys, h0]
    cases hf : flushBurstBuffer fr writeOutput { e with burst := b, payloadBytesPending := 0 } with
    | error f => rfl
    | ok e₄ => exact ih e₄ ((h.pack hs' hb 0 hd).flush hf true)
  | case8 e x rest hs n b hb e₁ hp hl => exact absurd (hfr.last _) hl
  | case9 e x rest hs n b hb e₁ hp =>
    have h0 := writeData_short writeOutput h hs hb hp []
    rw [List.append_nil, writeData.eq_1] at h0
    rw [writeData_short writeOutput h hs hb hp ys, h0]
    rfl

/-- **How the input of `write` is cut does not matter.** When every frame is the
last of its burst, its header part of it, and it fits the buffer after the
preamble, then from every encoder reached by `write`, `flushBurstBuffer` and
`reset` calls, `write` of `xs ++ ys` ends as `write` of `xs`, then `write` of
`ys`: the same encoder, the same bursts sent, the same fault, whatever
`writeOutput` does. -/
theorem write_append (hfr : fr.OwnBursts)
    (hmax : 2 * kSpdifEncodedChannelCount * fr.getMaxSampleFramesPerSyncFrame < 2 ^ 64)
    (h : Reach fr writeOutput e) (xs ys : List UInt8) :
    apply fr writeOutput e (.write (xs ++ ys)) =
      (apply fr writeOutput e (.write xs) >>= fun e' => apply fr writeOutput e' (.write ys)) := by
  simp only [apply_write]
  exact (h.streams hfr hmax).writeData_append writeOutput hfr e xs ys

end Enc

theorem write_append_small :
    Enc.apply smallScanner acceptAll (Enc.new smallScanner ()) (.write ([0x00, 0xAA, 1] ++ [2, 3, 4])) =
      (Enc.apply smallScanner acceptAll (Enc.new smallScanner ()) (.write [0x00, 0xAA, 1]) >>= fun e' =>
        Enc.apply smallScanner acceptAll e' (.write [2, 3, 4])) :=
  Enc.write_append ⟨fun _ => rfl, fun () => by decide, fun () => by decide⟩ (by decide) (.new ()) _ _

end AudioUtils
