import AudioUtils.Proof.SpdifSplit

/-!
# Every burst the encoder sends is a data burst

When every frame makes a burst of its own, each burst that a run of the encoder
hands to a `writeOutput` that takes each burst whole or fails is an IEC 61937
data burst of one frame (`Reach.outputs_isBurst`): for a scanner state `s` and
bytes `p`, `Pa Pb`, the burst info of `s` in bitstream `0`, the length code of
the bytes carried, the header of `s` followed by `p`, and zeros to the end of
the burst of `s`, which the bytes and the preamble fit. This holds for every
input and every order of `write`, `flushBurstBuffer` and `reset` calls, a frame
cut short by a flush included.

Every reachable encoder `Sends`: while it packs a frame, its buffer holds the
preamble and the frame so far, so that a flush sends a data burst
(`flushBurstBuffer_sends`), with `s` the scanner state of the frame and `p` its
payload packed so far. `write`'s loop keeps it by `LoopSteps.writeData`. The
statement keeps `s` and `p` existential.
-/

namespace AudioUtils

namespace FrameScanner

variable {σ : Type} (fr : FrameScanner σ)

/-- **A data burst of one frame**: for the scanner's state `s` at the frame's
header, the burst of `burstSize s` bytes that carries the header and payload
bytes `p`, with the burst info of `s` in bitstream `0` and the length code of
the bytes carried. -/
def IsBurst (out : List UInt8) : Prop :=
  ∃ s p, 8 + (fr.header s ++ p).length ≤ fr.burstSize s ∧
    out = dataBurst (fr.burstSize s) (fr.burstInfo 0 s)
      (fr.convertBytesToLengthCode s (fr.header s ++ p).length.toUInt16) (fr.header s ++ p)

end FrameScanner

namespace Enc

variable {σ : Type} {fr : FrameScanner σ} {writeOutput : List (List UInt8) → List UInt8 → ℤ}
  {e e' : Enc σ}

/-- With nothing in the buffer, the output loop sends nothing. -/
theorem writeLoop_zero (h0 : e.burst.byteCursor = 0) : writeLoop writeOutput e 0 = .ok e := by
  rw [writeLoop, if_neg (by omega)]

/-- **What a run keeps for its output**, besides `Streams`: bitstream `0`; while
the encoder packs a frame, its buffer holds the preamble with the frame's burst
info, then the frame's header and the payload so far; every burst it sent is a
data burst of one frame. -/
structure Sends (fr : FrameScanner σ) (e : Enc σ) : Prop where
  bitstream : e.bitstreamNumber = 0
  holds : e.scanning = false → ∃ p, e.burst.Holds (fr.burstInfo 0 e.framer) (fr.header e.framer ++ p)
  outputs : ∀ out ∈ e.outputs, fr.IsBurst out

theorem Sends.of_scanning (h : Sends fr { e with scanning := true }) (hs : e.scanning = true) :
    Sends fr e :=
  ⟨h.bitstream, fun h' => absurd (hs.symm.trans h') nofun, h.outputs⟩

section Output

variable (hout : ∀ outs bytes, writeOutput outs bytes < 0 ∨ (bytes.length : ℤ) ≤ writeOutput outs bytes)
include hout

variable (fr) in
/-- **What the flush sends** from a buffer that holds the bytes `d` after a
preamble with burst info `pc`: `dataBurst` of `d`, in one `writeOutput` call,
when `d` fits the burst of the scanner's frame; nothing otherwise. -/
theorem flushBurstBuffer_sends {pc : UInt16} {d : List UInt8} (h : e.burst.Holds pc d)
    (hcs : e.burst.byteCursor ≤ e.burst.burstBufferSizeBytes) :
    Returns (fun e' => e'.bitstreamNumber = e.bitstreamNumber ∧ ∀ out ∈ e'.outputs, out ∈ e.outputs ∨
        8 + d.length ≤ fr.burstSize e.framer ∧ out = dataBurst (fr.burstSize e.framer) pc
          (fr.convertBytesToLengthCode e.framer d.length.toUInt16) d)
      (fun _ => True) (flushBurstBuffer fr writeOutput e) := by
  have hw := h.packed.words
  have hc := h.cursor
  unfold flushBurstBuffer
  split
  · simp only [writeWord, if_pos (show 3 < e.burst.burstBuffer.length by omega), bind, Except.bind,
      sendZeroPad, FrameScanner.burstSize]
    by_cases hS : e.burst.byteCursor > fr.getSampleFramesPerSyncFrame e.framer * 2 * kSpdifEncodedChannelCount
    · rw [if_pos hS, writeLoop_zero _]
      · exact ⟨rfl, fun out ho => .inl ho⟩
      · rfl
    rw [if_neg hS]
    by_cases hlen : fr.getSampleFramesPerSyncFrame e.framer * 2 * kSpdifEncodedChannelCount ≤
      2 * e.burst.burstBuffer.length
    · rw [writeLoop_accept hout _ (by simp only; omega) (by simp only [List.length_set]; omega)]
      refine ⟨rfl, fun out ho => ?_⟩
      rcases List.mem_append.1 ho with ho | ho
      · exact .inl ho
      · refine .inr ⟨by omega, ?_⟩
        rw [List.mem_singleton.1 ho]
        simp only [hc, Nat.add_sub_cancel_left]
        exact h.flushed _ (by omega) hlen (by simp only [kSpdifEncodedChannelCount]; omega)
    · rw [writeLoop, if_pos (by simp only; omega), readBytes, if_neg (by simp only [List.length_set]; omega)]
      trivial
  · exact ⟨rfl, fun out ho => .inl ho⟩

/-- A flush from an encoder that streams and `Sends` sends data bursts. -/
theorem Sends.flush (hs : Streams fr e) (h : Sends fr e) (he : flushBurstBuffer fr writeOutput e = .ok e') :
    Sends fr { e' with scanning := true } := by
  suffices key : e'.bitstreamNumber = e.bitstreamNumber ∧ ∀ out ∈ e'.outputs, fr.IsBurst out from
    ⟨key.1.trans h.bitstream, nofun, key.2⟩
  cases hsc : e.scanning
  · obtain ⟨p, hb⟩ := h.holds hsc
    have hr := flushBurstBuffer_sends fr hout hb (by have := hs.room; omega)
    rw [he] at hr
    refine ⟨hr.1, fun out ho => ?_⟩
    rcases hr.2 out ho with ho | ⟨hS, rfl⟩
    · exact h.outputs out ho
    · exact ⟨e.framer, p, hS, rfl⟩
  · rw [flushBurstBuffer, if_neg (by rw [hs.cursor hsc]; omega)] at he
    cases he
    exact ⟨rfl, h.outputs⟩

/-- The steps of `write`'s loop keep `Sends`. -/
theorem Sends.loopSteps : LoopSteps (Sends fr) fr writeOutput where
  sync e s₁ b p _ h _ hb :=
    ⟨h.bitstream, fun _ => ⟨[], by rw [List.append_nil, ← h.bitstream]; exact hb⟩, h.outputs⟩
  skip e s h hs := ⟨h.bitstream, fun h' => absurd (hs.symm.trans h') nofun, h.outputs⟩
  pack e d b p hst h hs hb hp := by
    obtain ⟨q, hq⟩ := h.holds hs
    have hr := hst.room
    have hc := hq.cursor
    obtain ⟨b', hb', -, hq'⟩ := hq.writeBurstBufferBytes d (by omega)
    obtain rfl : b' = b := Except.ok.inj (hb'.symm.trans hb)
    exact ⟨h.bitstream, fun _ => ⟨q ++ d, by rw [← List.append_assoc]; exact hq'⟩, h.outputs⟩
  flush e e' hst h _ he := h.flush hout hst he

/-- Every reachable encoder `Sends`. -/
theorem Reach.sends (hfr : fr.OwnBursts)
    (hmax : 2 * kSpdifEncodedChannelCount * fr.getMaxSampleFramesPerSyncFrame < 2 ^ 64)
    (h : Reach fr writeOutput e) : Sends fr e := by
  induction h with
  | new s => exact ⟨rfl, nofun, fun _ h => absurd h (List.not_mem_nil _)⟩
  | @step e₀ e₁ c hr happ ih =>
    have hst := hr.streams hfr hmax
    cases c with
    | write data =>
      rw [apply_write] at happ
      exact ((Sends.loopSteps hout).writeData hfr _ data hst ih _ happ).2
    | flushBurstBuffer =>
      have hc := flushBurstBuffer_cleared fr writeOutput e₀
      rw [show flushBurstBuffer fr writeOutput e₀ = .ok e₁ from happ] at hc
      exact (ih.flush hout hst happ).of_scanning hc.2.2.2
    | reset =>
      cases happ
      exact ⟨ih.bitstream, nofun, ih.outputs⟩

/-- **Every burst the encoder sends is a data burst.** When every frame is the
last of its burst, its header part of it, and it fits the buffer after the
preamble, then in every encoder reached by `write`, `flushBurstBuffer` and
`reset` calls, each burst passed to a `writeOutput` that takes each burst whole
or fails is an IEC 61937 data burst of one frame: for some scanner state `s`
and bytes `p`, `Pa Pb`, the burst info of `s` in bitstream `0`, the length code
of the bytes carried, the header of `s` and `p`, and zeros to the end of the
burst of `s`. -/
theorem Reach.outputs_isBurst (hfr : fr.OwnBursts)
    (hmax : 2 * kSpdifEncodedChannelCount * fr.getMaxSampleFramesPerSyncFrame < 2 ^ 64)
    (h : Reach fr writeOutput e) : ∀ out ∈ e.outputs, fr.IsBurst out :=
  (h.sends hout hfr hmax).outputs

end Output

end Enc

/-- The encoder after one `write` of the two small frames. -/
def smallSent : Enc Unit :=
  (Enc.apply smallScanner acceptAll (Enc.new smallScanner ())
    (.write (smallFrames.flatMap Frame.bytes))).toOption.getD (Enc.new smallScanner ())

unseal Enc.writeData Enc.writeLoop in
/-- The first burst sent for the two small frames is a data burst. -/
theorem outputs_isBurst_small : smallScanner.IsBurst (smallSent.outputs.headD []) :=
  Enc.Reach.outputs_isBurst (fun _ _ => .inr (Int.le_refl _))
    ⟨fun _ => rfl, fun () => by decide, fun () => by decide⟩ (by decide)
    (show Enc.Reach smallScanner acceptAll smallSent from
      .step (.write (smallFrames.flatMap Frame.bytes)) (.new ()) rfl) _ (by decide)

end AudioUtils
