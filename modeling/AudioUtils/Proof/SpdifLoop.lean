import AudioUtils.Proof.Spdif

/-!
# `SPDIFEncoder::write` terminates

* `Enc.writeData_cons`: `writeData` is `write`'s loop body, `writeIteration`,
  followed by the loop on the bytes left.
* `Enc.writeIteration_decreases`: every pass of the body lowers
  `2 * bytesLeft + (mScanning ? 0 : 1)`, also a payload pass with
  `mPayloadBytesPending = 0` that consumes no byte.
* `Enc.write_terminates`: `2n + 1` passes finish `write` on `n` bytes, and a
  `writeOutput` that never returns `0` lets no output loop of
  `flushBurstBuffer` spin.
-/

namespace AudioUtils

/-- A result that is a value satisfying `P` or an error satisfying `Q`. -/
def Returns {ε α : Type} (P : α → Prop) (Q : ε → Prop) : Except ε α → Prop
  | .ok a => P a
  | .error e => Q e

section Returns

variable {ε α β : Type} {P : β → Prop} {Q : ε → Prop}

theorem Returns.bind {R : α → Prop} {r : Except ε α} {f : α → Except ε β} (hr : Returns R Q r)
    (hf : ∀ a, R a → Returns P Q (f a)) : Returns P Q (r >>= f) := by
  cases r with
  | error e => exact hr
  | ok a => exact hf a hr

/-- When every error satisfies `Q`, only what follows a bind matters. -/
theorem Returns.bind_of {r : Except ε α} {f : α → Except ε β} (hQ : ∀ e, Q e)
    (hf : ∀ a, Returns P Q (f a)) : Returns P Q (r >>= f) := by
  cases r with
  | error e => exact hQ e
  | ok a => exact hf a

end Returns

/-- No output loop spins: every error is an access out of bounds. -/
def NoSpin {α : Type} : Except Fault α → Prop := Returns (fun _ => True) (· = .outOfBounds)

theorem NoSpin.bind {α β : Type} {r : Except Fault α} {f : α → Except Fault β} (hr : NoSpin r)
    (hf : ∀ a, NoSpin (f a)) : NoSpin (r >>= f) :=
  Returns.bind hr fun a _ => hf a

theorem NoSpin.pure {α : Type} (a : α) : NoSpin (pure a : Except Fault α) := trivial

/-! ## Buffer accesses fail only out of bounds -/

theorem readWord_noSpin (buf : List UInt16) (i : ℕ) : NoSpin (readWord buf i) := by
  unfold readWord; split <;> first | exact trivial | rfl

theorem writeWord_noSpin (buf : List UInt16) (i : ℕ) (w : UInt16) : NoSpin (writeWord buf i w) := by
  unfold writeWord; split <;> first | exact trivial | rfl

theorem copyWords_noSpin (buf : List UInt16) (i : ℕ) (ws : List UInt16) :
    NoSpin (copyWords buf i ws) := by
  unfold copyWords; split <;> first | exact trivial | rfl

theorem readBytes_noSpin (buf : List UInt16) (off len : ℕ) : NoSpin (readBytes buf off len) := by
  unfold readBytes; split <;> first | exact trivial | rfl

theorem packBytes_noSpin (bytes : List UInt8) :
    ∀ (buf : List UInt16) (cursor : ℕ) (pad : UInt16), NoSpin (Burst.packBytes buf cursor pad bytes) := by
  induction bytes with
  | nil => intro _ _ _; trivial
  | cons x xs ih =>
    intro buf cursor pad
    unfold Burst.packBytes
    split
    · exact (writeWord_noSpin _ _ _).bind fun _ => ih _ _ _
    · exact ih _ _ _

theorem Burst.writeBurstBufferBytes_noSpin (b : Burst) (bytes : List UInt8) :
    NoSpin (b.writeBurstBufferBytes bytes) := by
  unfold Burst.writeBurstBufferBytes
  split
  · trivial
  split
  · trivial
  refine (readWord_noSpin _ _).bind fun _ => (packBytes_noSpin _ _ _ _).bind fun ⟨_, _, _⟩ => ?_
  dsimp only
  split
  · exact (writeWord_noSpin _ _ _).bind fun _ => NoSpin.pure _
  · exact NoSpin.pure _

namespace Enc

variable {σ : Type} (fr : FrameScanner σ) (writeOutput : List (List UInt8) → List UInt8 → ℤ)

theorem startDataBurst_noSpin (e : Enc σ) : NoSpin (startDataBurst fr e) := by
  unfold startDataBurst writeBurstBufferShorts
  dsimp only
  split
  · trivial
  · exact (copyWords_noSpin _ _ _).bind fun _ => NoSpin.pure _

theorem startSyncFrame_noSpin (e : Enc σ) : NoSpin (startSyncFrame fr e) := by
  unfold startSyncFrame
  refine (e.burst.writeBurstBufferBytes_noSpin _).bind fun _ => ?_
  dsimp only
  split <;> exact NoSpin.pure _

/-! ## The output loop -/

theorem length_bufferBytes (buf : List UInt16) : (bufferBytes buf).length = 2 * buf.length := by
  induction buf with
  | nil => rfl
  | cons w ws ih =>
    simp only [bufferBytes, List.flatMap_cons, List.length_append, List.length_cons, List.length_nil] at ih ⊢
    omega

/-- The bytes the output loop passes are never empty. -/
theorem readBytes_ne_nil {buf : List UInt16} {off len : ℕ} {bytes : List UInt8} (hlen : 0 < len)
    (h : readBytes buf off len = .ok bytes) : bytes ≠ [] := by
  unfold readBytes at h
  split at h
  · cases h
    rename_i hle
    rw [← List.length_pos, List.length_take, List.length_drop, length_bufferBytes]
    omega
  · cases h

section Output

variable (hout : ∀ outs bytes, bytes ≠ [] → writeOutput outs bytes ≠ 0)
include hout

/-- **The output loop of `flushBurstBuffer` ends**: each pass writes at least one
byte or stops on an error. -/
theorem writeLoop_noSpin (e : Enc σ) (bytesWritten : ℕ) :
    NoSpin (writeLoop writeOutput e bytesWritten) := by
  rw [writeLoop]
  split
  · rename_i hlt
    split
    · rename_i f hf
      have := readBytes_noSpin e.burst.burstBuffer bytesWritten (e.burst.byteCursor - bytesWritten)
      rwa [hf] at this
    · rename_i bytes hb
      have hres := hout e.outputs bytes (readBytes_ne_nil (by omega) hb)
      dsimp only
      split
      · trivial
      · exact writeLoop_noSpin _ _
  · trivial
termination_by e.burst.byteCursor - bytesWritten
decreasing_by simp_wf; omega

theorem flushBurstBuffer_noSpin (e : Enc σ) : NoSpin (flushBurstBuffer fr writeOutput e) := by
  unfold flushBurstBuffer
  split
  · exact (writeWord_noSpin _ _ _).bind fun _ =>
      (writeLoop_noSpin writeOutput hout _ 0).bind fun _ => NoSpin.pure _
  · exact NoSpin.pure _

/-- One pass of `write`'s loop body fails only out of bounds. -/
theorem writeIteration_noSpin (e : Enc σ) (x : UInt8) (rest : List UInt8) :
    NoSpin (writeIteration fr writeOutput e x rest) := by
  unfold writeIteration
  split
  · dsimp only
    split
    · have tail : ∀ r : Except Fault (Enc σ), NoSpin r → NoSpin (r >>= fun e =>
          startSyncFrame fr e >>= fun p => pure ({ p.1 with payloadBytesPending := p.2, scanning := false }, rest)) :=
        fun r hr => hr.bind fun _ => (startSyncFrame_noSpin fr _).bind fun _ => NoSpin.pure _
      split
      · exact tail _ (startDataBurst_noSpin fr _)
      split
      · exact (flushBurstBuffer_noSpin fr writeOutput hout _).bind fun _ => tail _ (startDataBurst_noSpin fr _)
      · exact tail _ (NoSpin.pure _)
    · exact NoSpin.pure _
  · dsimp only
    split
    · rename_i f hf
      have := e.burst.writeBurstBufferBytes_noSpin ((x :: rest).take (min (x :: rest).length e.payloadBytesPending))
      rwa [hf] at this
    · split
      · split
        · exact (flushBurstBuffer_noSpin fr writeOutput hout _).bind fun _ => NoSpin.pure _
        · exact (NoSpin.pure _).bind fun _ => NoSpin.pure _
      · exact NoSpin.pure _

end Output

/-! ## The main loop -/

/-- `writeData` is one pass of the loop body, then the loop on the bytes left. -/
theorem writeData_cons (e : Enc σ) (x : UInt8) (rest : List UInt8) :
    writeData fr writeOutput e (x :: rest) =
      writeIteration fr writeOutput e x rest >>= fun p => writeData fr writeOutput p.1 p.2 := by
  rw [writeData, writeIteration]
  by_cases hs : e.scanning = true
  · rw [if_pos hs, if_pos hs]
    obtain ⟨framer, found⟩ := fr.scan e.framer x
    cases found
    · rfl
    · dsimp only
      split_ifs <;> simp only [bind_assoc, pure_bind]
  · rw [if_neg hs, if_neg hs]
    dsimp only
    cases e.burst.writeBurstBufferBytes _
    · rfl
    · dsimp only
      split_ifs <;> simp only [bind_assoc, pure_bind]

/-- The measure of `write`'s loop: twice the bytes left, and one more while the
payload of a frame is being written. -/
def loopMeasure (e : Enc σ) (data : List UInt8) : ℕ := 2 * data.length + if e.scanning then 0 else 1

/-- **Every pass of the loop body lowers the measure.** A scanning pass consumes
a byte and may stop scanning; a payload pass consumes bytes and scans again when
the frame is complete, or else consumes all the bytes left. -/
theorem writeIteration_decreases (e : Enc σ) (x : UInt8) (rest : List UInt8) :
    Returns (fun p => loopMeasure p.1 p.2 < loopMeasure e (x :: rest)) (fun _ => True)
      (writeIteration fr writeOutput e x rest) := by
  unfold writeIteration loopMeasure
  split
  · rename_i hs
    dsimp only
    split
    · split_ifs <;> repeat refine Returns.bind_of (fun _ => trivial) fun _ => ?_
      all_goals
        show _ < _
        simp only [hs, if_true, Bool.false_eq_true, if_false, List.length_cons]
        omega
    · show _ < _
      simp only [hs, if_true, List.length_cons]
      omega
  · rename_i hs
    dsimp only
    split
    · trivial
    · split
      · split <;> refine Returns.bind_of (fun _ => trivial) fun _ => ?_ <;>
        · show _ < _
          simp only [hs, if_true, Bool.false_eq_true, if_false, List.length_drop, List.length_cons]
          omega
      · rename_i hp
        show _ < _
        simp only [List.length_cons] at hp ⊢
        rw [show min (rest.length + 1) e.payloadBytesPending = rest.length + 1 by omega]
        simp only [hs, Bool.false_eq_true, if_false, List.drop_succ_cons, List.drop_length,
          List.length_nil]
        omega

/-- Enough passes of the body give the loop's result. -/
theorem writeLoopFuel_eq : ∀ (fuel : ℕ) (e : Enc σ) (data : List UInt8), loopMeasure e data ≤ fuel →
    writeLoopFuel fr writeOutput fuel e data = some (writeData fr writeOutput e data)
  | _, e, [], _ => by rw [writeLoopFuel, writeData]
  | 0, e, x :: rest, h => absurd h (by simp only [loopMeasure, List.length_cons]; omega)
  | fuel + 1, e, x :: rest, h => by
    have hdec := writeIteration_decreases fr writeOutput e x rest
    rw [writeLoopFuel, writeData_cons]
    cases hr : writeIteration fr writeOutput e x rest with
    | error f => rfl
    | ok p =>
      rw [hr] at hdec
      exact writeLoopFuel_eq fuel p.1 p.2 (by simp only [Returns] at hdec; omega)

theorem writeLoopFuel_noSpin (hout : ∀ outs bytes, bytes ≠ [] → writeOutput outs bytes ≠ 0) :
    ∀ (fuel : ℕ) (e : Enc σ) (data : List UInt8) (r : Except Fault (Enc σ)),
      writeLoopFuel fr writeOutput fuel e data = some r → NoSpin r
  | _, e, [], r, h => by rw [writeLoopFuel] at h; cases h; trivial
  | 0, e, x :: rest, r, h => by rw [writeLoopFuel] at h; cases h
  | fuel + 1, e, x :: rest, r, h => by
    have hns := writeIteration_noSpin fr writeOutput hout e x rest
    rw [writeLoopFuel] at h
    cases hr : writeIteration fr writeOutput e x rest with
    | error f => rw [hr] at h hns; cases h; exact hns
    | ok p => rw [hr] at h; exact writeLoopFuel_noSpin hout fuel p.1 p.2 r h

/-- **`write` terminates.** For every scanner, every encoder and every `n` bytes,
the loop of `write` is done after at most `2n + 1` passes of its body, with the
result of `writeData`. If `writeOutput` never returns `0` for the bytes it is
given, no output loop of a `flushBurstBuffer` it calls spins: the call can fail
only by an access out of bounds. -/
theorem write_terminates (e : Enc σ) (data : List UInt8) :
    writeLoopFuel fr writeOutput (2 * data.length + 1) e data = some (writeData fr writeOutput e data) ∧
      ((∀ outs bytes, bytes ≠ [] → writeOutput outs bytes ≠ 0) →
        writeData fr writeOutput e data ≠ .error .noProgress) := by
  have hfuel := writeLoopFuel_eq fr writeOutput (2 * data.length + 1) e data
    (by unfold loopMeasure; split <;> omega)
  refine ⟨hfuel, fun hout hspin => ?_⟩
  have := writeLoopFuel_noSpin fr writeOutput hout _ e data _ hfuel
  rw [hspin] at this
  cases this

end Enc

/-- Nine bytes of the made-up format, written by an encoder that has just been
built, with a `writeOutput` that accepts every byte. -/
theorem write_terminates_toy :
    Enc.writeLoopFuel toyScanner acceptAll 19 (Enc.new toyScanner ()) (0xAA :: List.replicate 8 0) =
        some (Enc.writeData toyScanner acceptAll (Enc.new toyScanner ()) (0xAA :: List.replicate 8 0)) ∧
      Enc.writeData toyScanner acceptAll (Enc.new toyScanner ()) (0xAA :: List.replicate 8 0) ≠
        .error .noProgress :=
  have h := Enc.write_terminates toyScanner acceptAll (Enc.new toyScanner ()) (0xAA :: List.replicate 8 0)
  ⟨h.1, h.2 fun _ _ hb h => hb (List.length_eq_zero.1 (by simp only [acceptAll] at h; omega))⟩

end AudioUtils
