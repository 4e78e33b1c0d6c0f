import AudioUtils.Proof.SpdifLoop
import Mathlib.Data.List.GetD

/-!
# SPDIF byte packing

`writeBurstBufferBytes` packs bytes into the 16-bit words of the burst buffer.
Logical byte `p` is the high byte of word `p / 2` when `p` is even and the low
byte when `p` is odd. The packing loop ORs each byte into a pad word that it
first reads back from the buffer, so it is right only because every byte from
the cursor on is zero.

* `Burst.writeBurstBufferBytes_spec`: on a buffer that is zero from the cursor
  on, the bytes land at the cursor, nothing else changes, and the buffer stays
  zero above the new cursor.
* `Burst.writeBurstBufferBytes_append`: so packing `a ++ b` is packing `a`, then
  `b`.
* `Enc.Reach.packed`: every encoder state reached by the calls keeps the buffer
  zero from the cursor on.
-/

namespace AudioUtils

/-! ## Words and bytes -/

theorem toNat_or_low {pad : UInt16} (x : UInt8) (h : pad.toNat % 256 = 0) :
    (pad ||| x.toUInt16).toNat = pad.toNat + x.toNat := by
  have hx : x.toNat < 2 ^ 8 := x.toNat_lt_size
  show (pad.toBitVec ||| x.toUInt16.toBitVec).toNat = _
  rw [BitVec.toNat_or, show pad.toBitVec.toNat = 2 ^ 8 * (pad.toNat / 256) by show pad.toNat = _; omega,
    show x.toUInt16.toBitVec.toNat = x.toNat from rfl, ← Nat.mul_add_lt_is_or hx]
  omega

theorem toNat_shiftLeft_eight (x : UInt8) : (x.toUInt16 <<< 8).toNat = 256 * x.toNat := by
  have hx : x.toNat < 256 := x.toNat_lt_size
  show (x.toUInt16.toBitVec <<< (UInt16.mod 8 16).toBitVec).toNat = _
  rw [BitVec.shiftLeft_eq', BitVec.toNat_shiftLeft]
  show x.toNat <<< 8 % 2 ^ 16 = _
  rw [Nat.shiftLeft_eq]
  omega

theorem zero_or_word (w : UInt16) : 0 ||| w = w := UInt16.eq_of_toBitVec_eq BitVec.zero_or

theorem toNat_highByte (w : UInt16) : (w >>> 8).toUInt8.toNat = w.toNat / 256 := by
  have hw : w.toNat < 65536 := w.toNat_lt_size
  show ((w.toBitVec >>> (UInt16.mod 8 16).toBitVec).toNat) % 256 = _
  rw [BitVec.ushiftRight_eq', BitVec.toNat_ushiftRight]
  show w.toNat >>> 8 % 256 = _
  rw [Nat.shiftRight_eq_div_pow]
  omega

theorem toNat_lowByte (w : UInt16) : w.toUInt8.toNat = w.toNat % 256 := rfl

/-- ORing a byte into a word whose low byte is zero sets the low byte. -/
theorem bytes_or_low {pad : UInt16} (x : UInt8) (h : pad.toNat % 256 = 0) :
    ((pad ||| x.toUInt16) >>> 8).toUInt8 = (pad >>> 8).toUInt8 ∧ (pad ||| x.toUInt16).toUInt8 = x := by
  have hx : x.toNat < 256 := x.toNat_lt_size
  refine ⟨UInt8.toNat.inj ?_, UInt8.toNat.inj ?_⟩
  · rw [toNat_highByte, toNat_highByte, toNat_or_low x h]; omega
  · rw [toNat_lowByte, toNat_or_low x h]; omega

/-- A byte shifted into the high half: the high byte is the byte, the low byte zero. -/
theorem bytes_shiftLeft_eight (x : UInt8) :
    (x.toUInt16 <<< 8 >>> 8).toUInt8 = x ∧ (x.toUInt16 <<< 8).toUInt8 = 0 := by
  have hx : x.toNat < 256 := x.toNat_lt_size
  refine ⟨UInt8.toNat.inj ?_, UInt8.toNat.inj ?_⟩
  · rw [toNat_highByte, toNat_shiftLeft_eight]; omega
  · rw [toNat_lowByte, toNat_shiftLeft_eight, UInt8.toNat_zero]; omega

/-- A word is its two bytes. -/
theorem word_ext {w₁ w₂ : UInt16} (hh : (w₁ >>> 8).toUInt8 = (w₂ >>> 8).toUInt8)
    (hl : w₁.toUInt8 = w₂.toUInt8) : w₁ = w₂ := by
  have h1 := congrArg UInt8.toNat hh
  have h2 := congrArg UInt8.toNat hl
  rw [toNat_highByte, toNat_highByte] at h1
  rw [toNat_lowByte, toNat_lowByte] at h2
  exact UInt16.toNat.inj (by omega)

/-- Logical byte `p` of the burst buffer: the high byte of word `p / 2` when `p`
is even, the low byte when `p` is odd; `0` past the end. -/
def byteAt (buf : List UInt16) (p : ℕ) : UInt8 :=
  if p % 2 = 0 then (buf.getD (p / 2) 0 >>> 8).toUInt8 else (buf.getD (p / 2) 0).toUInt8

theorem byteAt_set_of_ne {buf : List UInt16} {i : ℕ} (w : UInt16) {p : ℕ} (h : p / 2 ≠ i) :
    byteAt (buf.set i w) p = byteAt buf p := by
  simp only [byteAt, List.getD_eq_getElem?_getD, List.getElem?_set_ne (Ne.symm h)]

theorem byteAt_set_self {buf : List UInt16} {i : ℕ} (w : UInt16) (hi : i < buf.length) {p : ℕ}
    (h : p / 2 = i) : byteAt (buf.set i w) p = if p % 2 = 0 then (w >>> 8).toUInt8 else w.toUInt8 := by
  simp only [byteAt, List.getD_eq_getElem?_getD, h, List.getElem?_set_self hi, Option.getD_some]

@[simp] theorem byteAt_replicate_zero (n p : ℕ) : byteAt (List.replicate n 0) p = 0 := by
  simp only [byteAt, List.getD_eq_getElem?_getD, List.getElem?_replicate]
  split <;> split <;> rfl

/-- Two buffers of one length with the same bytes are equal. -/
theorem ext_byteAt {buf₁ buf₂ : List UInt16} (hlen : buf₁.length = buf₂.length)
    (h : ∀ p, byteAt buf₁ p = byteAt buf₂ p) : buf₁ = buf₂ := by
  refine List.ext_getElem hlen fun i h₁ h₂ => word_ext ?_ ?_
  · simpa [byteAt, List.getD_eq_getElem?_getD, h₁, h₂] using h (2 * i)
  · have := h (2 * i + 1)
    rwa [byteAt, byteAt, if_neg (by omega), if_neg (by omega), show (2 * i + 1) / 2 = i by omega,
      List.getD_eq_getElem?_getD, List.getD_eq_getElem?_getD, List.getElem?_eq_getElem h₁,
      List.getElem?_eq_getElem h₂] at this

/-- Every logical byte from `c` on is zero. -/
def ZeroFrom (buf : List UInt16) (c : ℕ) : Prop := ∀ p, c ≤ p → byteAt buf p = 0

/-! ## The packing loop -/

/-- The buffer as the packing loop sees it: with the pad word in place while the
cursor is odd. -/
def padded (buf : List UInt16) (cursor : ℕ) (pad : UInt16) : List UInt16 :=
  if cursor % 2 = 1 then buf.set (cursor / 2) pad else buf

/-- A pass at an odd cursor ORs the byte into the low half of the pad, which is
zero, and stores the pad. -/
theorem byteAt_pack_odd {buf : List UInt16} {cursor : ℕ} {pad : UInt16} (x : UInt8)
    (hc : cursor % 2 = 1) (hi : cursor / 2 < buf.length) (hz : ZeroFrom (padded buf cursor pad) cursor)
    (p : ℕ) : byteAt (buf.set (cursor / 2) (pad ||| x.toUInt16)) p =
      if p = cursor then x else byteAt (padded buf cursor pad) p := by
  have hx : x.toNat < 256 := x.toNat_lt_size
  have hpad : pad.toNat % 256 = 0 := by
    have := hz cursor le_rfl
    rw [padded, if_pos hc, byteAt_set_self _ hi rfl, if_neg (by omega)] at this
    rw [← toNat_lowByte, this]; rfl
  rw [padded, if_pos hc]
  by_cases hp : p / 2 = cursor / 2
  · rw [byteAt_set_self _ hi hp, byteAt_set_self _ hi hp]
    have hb := bytes_or_low x hpad
    split_ifs with h2 hpc hpc
    · omega
    · exact hb.1
    · exact hb.2
    · omega
  · rw [byteAt_set_of_ne _ hp, byteAt_set_of_ne _ hp, if_neg (by omega)]

/-- A pass at an even cursor puts the byte in the high half of a zero pad. -/
theorem byteAt_pack_even {buf : List UInt16} {cursor : ℕ} (x : UInt8) (hc : cursor % 2 = 0)
    (hi : cursor / 2 < buf.length) (hz : ZeroFrom buf cursor) (p : ℕ) :
    byteAt (buf.set (cursor / 2) (x.toUInt16 <<< 8)) p = if p = cursor then x else byteAt buf p := by
  have hx : x.toNat < 256 := x.toNat_lt_size
  by_cases hp : p / 2 = cursor / 2
  · rw [byteAt_set_self _ hi hp]
    have hz' := hz p (by omega)
    have hb := bytes_shiftLeft_eight x
    split_ifs with h2 hpc
    · exact hb.1
    · omega
    · omega
    · exact hb.2.trans hz'.symm
  · rw [byteAt_set_of_ne _ hp, if_neg (by omega)]

/-- One written byte, then the rest: the bytes of `x :: xs` from `c` on. -/
theorem byteAt_cons_step {L L₁ L' : List UInt16} {c : ℕ} {x : UInt8} {xs : List UInt8}
    (h₁ : ∀ p, byteAt L₁ p = if p = c then x else byteAt L p)
    (h' : ∀ p, byteAt L' p =
      if c + 1 ≤ p ∧ p < c + 1 + xs.length then xs.getD (p - (c + 1)) 0 else byteAt L₁ p) (p : ℕ) :
    byteAt L' p = if c ≤ p ∧ p < c + 1 + xs.length then (x :: xs).getD (p - c) 0 else byteAt L p := by
  rw [h', h₁]
  by_cases hpc : p = c
  · rw [if_neg (by omega), if_pos hpc, if_pos (by omega), hpc, Nat.sub_self]; rfl
  · rw [if_neg hpc]
    by_cases hr : c + 1 ≤ p ∧ p < c + 1 + xs.length
    · rw [if_pos hr, if_pos (by omega), show p - c = p - (c + 1) + 1 by omega, List.getD_cons_succ]
    · rw [if_neg hr, if_neg (by omega)]

/-- **The packing loop writes the bytes at the cursor.** From a pad that is zero
at an even cursor, and a view of the buffer that is zero from the cursor on, it
sets the logical bytes from the cursor on to the bytes and leaves the others. -/
theorem packBytes_spec (bytes : List UInt8) :
    ∀ (buf : List UInt16) (cursor : ℕ) (pad : UInt16), cursor + bytes.length ≤ 2 * buf.length →
      (cursor % 2 = 0 → pad = 0) → ZeroFrom (padded buf cursor pad) cursor →
      ∃ buf' pad', Burst.packBytes buf cursor pad bytes = .ok (buf', cursor + bytes.length, pad') ∧
        buf'.length = buf.length ∧ ((cursor + bytes.length) % 2 = 0 → pad' = 0) ∧
        ∀ p, byteAt (padded buf' (cursor + bytes.length) pad') p =
          if cursor ≤ p ∧ p < cursor + bytes.length then bytes.getD (p - cursor) 0
          else byteAt (padded buf cursor pad) p := by
  induction bytes with
  | nil =>
    intro buf cursor pad _ hpad _
    exact ⟨buf, pad, rfl, rfl, hpad, fun p => (if_neg (by simp only [List.length_nil]; omega)).symm⟩
  | cons x xs ih =>
    intro buf cursor pad hroom hpad hz
    simp only [List.length_cons] at hroom
    have hi : cursor / 2 < buf.length := by omega
    rw [List.length_cons, show cursor + (xs.length + 1) = cursor + 1 + xs.length by omega]
    unfold Burst.packBytes
    split
    · rename_i hc
      have h₁ := byteAt_pack_odd x hc hi hz
      have hp₁ : padded (buf.set (cursor / 2) (pad ||| x.toUInt16)) (cursor + 1) 0 =
          buf.set (cursor / 2) (pad ||| x.toUInt16) := if_neg (by omega)
      obtain ⟨buf', pad', hpack, hlen, hpad', hbytes⟩ := ih (buf.set (cursor / 2) (pad ||| x.toUInt16))
        (cursor + 1) 0 (by simp only [List.length_set]; omega) (fun _ => rfl)
        (fun p hp => by rw [hp₁, h₁, if_neg (by omega)]; exact hz p (by omega))
      refine ⟨buf', pad', by simp only [writeWord, hi, if_true, bind, Except.bind, hpack],
        by simpa using hlen, hpad', ?_⟩
      rw [hp₁] at hbytes
      exact byteAt_cons_step h₁ hbytes
    · rename_i hc
      have hc : cursor % 2 = 0 := by omega
      have hz₀ : ZeroFrom buf cursor := by simpa only [padded, if_neg (by omega : ¬cursor % 2 = 1)] using hz
      have h₁ := byteAt_pack_even x hc hi hz₀
      have hp₁ : padded buf (cursor + 1) (pad ||| x.toUInt16 <<< 8) =
          buf.set (cursor / 2) (x.toUInt16 <<< 8) := by
        rw [padded, if_pos (by omega), show (cursor + 1) / 2 = cursor / 2 by omega, hpad hc, zero_or_word]
      obtain ⟨buf', pad', hpack, hlen, hpad', hbytes⟩ := ih buf (cursor + 1)
        (pad ||| x.toUInt16 <<< 8) (by omega) (fun h => absurd h (by omega))
        (fun p hp => by rw [hp₁, h₁, if_neg (by omega)]; exact hz₀ p (by omega))
      refine ⟨buf', pad', hpack, hlen, hpad', ?_⟩
      rw [hp₁] at hbytes
      have hL : padded buf cursor pad = buf := if_neg (by omega)
      rw [hL]
      exact byteAt_cons_step h₁ hbytes

/-! ## `writeBurstBufferBytes` -/

namespace Burst

/-- Every logical byte from the cursor on is zero. -/
def ZeroAbove (b : Burst) : Prop := ZeroFrom b.burstBuffer b.byteCursor

/-- The byte-packing invariant of the burst buffer: `mBurstBufferSizeBytes / 2`
words, a size that fits a `size_t`, and every byte from the cursor on zero. -/
structure Packed (b : Burst) : Prop where
  words : 2 * b.burstBuffer.length = b.burstBufferSizeBytes
  size_lt : b.burstBufferSizeBytes < 2 ^ 64
  zero : b.ZeroAbove

/-- On a buffer that is zero from the cursor on, the word under an even cursor is
zero, so the pad read back is. -/
theorem Packed.word_eq_zero {b : Burst} (hb : b.Packed) (hc : b.byteCursor % 2 = 0)
    (hi : b.byteCursor / 2 < b.burstBuffer.length) : b.burstBuffer[b.byteCursor / 2] = 0 := by
  have h1 := hb.zero b.byteCursor le_rfl
  have h2 := hb.zero (b.byteCursor + 1) (by omega)
  rw [byteAt, if_pos hc, List.getD_eq_getElem?_getD, List.getElem?_eq_getElem hi,
    Option.getD_some] at h1
  rw [byteAt, if_neg (by omega), show (b.byteCursor + 1) / 2 = b.byteCursor / 2 by omega,
    List.getD_eq_getElem?_getD, List.getElem?_eq_getElem hi, Option.getD_some] at h2
  exact word_ext (h1.trans rfl) (h2.trans rfl)

/-- **`writeBurstBufferBytes` is exact.** On a packed buffer with room for the
bytes, it sets logical byte `mByteCursor + k` to the `k`-th byte, leaves every
other byte, and advances the cursor by their number. -/
theorem writeBurstBufferBytes_spec {b : Burst} (hb : b.Packed) {d : List UInt8}
    (hd : b.byteCursor + d.length ≤ b.burstBufferSizeBytes) :
    ∃ b', b.writeBurstBufferBytes d = .ok b' ∧ b'.burstBufferSizeBytes = b.burstBufferSizeBytes ∧
      b'.byteCursor = b.byteCursor + d.length ∧ b'.burstBuffer.length = b.burstBuffer.length ∧
      ∀ p, byteAt b'.burstBuffer p =
        if b.byteCursor ≤ p ∧ p < b.byteCursor + d.length then d.getD (p - b.byteCursor) 0
        else byteAt b.burstBuffer p := by
  have hw := hb.words
  unfold writeBurstBufferBytes
  rw [if_neg (by rw [wouldOverflowBuffer_iff hb.size_lt]; omega)]
  by_cases hd0 : d.length = 0
  · rw [if_pos hd0]
    exact ⟨b, rfl, rfl, by omega, rfl, fun p => (if_neg (by omega)).symm⟩
  rw [if_neg hd0]
  have hi : b.byteCursor / 2 < b.burstBuffer.length := by omega
  have hview : padded b.burstBuffer b.byteCursor b.burstBuffer[b.byteCursor / 2] = b.burstBuffer := by
    unfold padded; split
    · exact List.ext_getElem (by simp) fun j _ _ => by rw [List.getElem_set]; split <;> simp_all
    · rfl
  obtain ⟨buf', pad', hpack, hlen, -, hbytes⟩ := packBytes_spec d b.burstBuffer b.byteCursor
    b.burstBuffer[b.byteCursor / 2] (by omega) (hb.word_eq_zero · hi) (by rw [hview]; exact hb.zero)
  rw [hview] at hbytes
  simp only [readWord, List.getElem?_eq_getElem hi, bind, Except.bind, hpack]
  split
  · rename_i hc
    have hi' : (b.byteCursor + d.length) / 2 < buf'.length := by omega
    rw [padded, if_pos hc] at hbytes
    exact ⟨{ b with burstBuffer := buf'.set _ pad', byteCursor := _ },
      by simp only [writeWord, hi', if_true]; rfl, rfl, rfl, by simp [hlen], hbytes⟩
  · rename_i hc
    rw [padded, if_neg hc] at hbytes
    exact ⟨{ b with burstBuffer := buf', byteCursor := _ }, rfl, rfl, rfl, hlen, hbytes⟩

theorem Packed.clearBurstBuffer {b : Burst} (hb : b.Packed) : b.clearBurstBuffer.Packed :=
  ⟨by simpa [Burst.clearBurstBuffer] using hb.words, hb.size_lt,
    fun p _ => byteAt_replicate_zero _ p⟩

/-- What `writeBurstBufferBytes_spec` gives is packed again: the bytes past the
new cursor are those past the old one. -/
theorem Packed.of_spec {b b' : Burst} (hb : b.Packed) {d : List UInt8}
    (hs : b'.burstBufferSizeBytes = b.burstBufferSizeBytes) (hc : b'.byteCursor = b.byteCursor + d.length)
    (hl : b'.burstBuffer.length = b.burstBuffer.length)
    (hy : ∀ p, byteAt b'.burstBuffer p =
      if b.byteCursor ≤ p ∧ p < b.byteCursor + d.length then d.getD (p - b.byteCursor) 0
      else byteAt b.burstBuffer p) : b'.Packed :=
  ⟨by rw [hl, hs]; exact hb.words, hs ▸ hb.size_lt,
    fun p hp => by rw [hy, if_neg (by rw [hc] at hp; omega)]; exact hb.zero p (by rw [hc] at hp; omega)⟩

/-- `writeBurstBufferBytes` keeps a buffer packed, overflowing or not. -/
theorem Packed.writeBurstBufferBytes {b : Burst} (hb : b.Packed) (d : List UInt8) :
    ∃ b', b.writeBurstBufferBytes d = .ok b' ∧ b'.Packed ∧
      b'.burstBufferSizeBytes = b.burstBufferSizeBytes := by
  by_cases hd : b.byteCursor + d.length ≤ b.burstBufferSizeBytes
  · obtain ⟨b', h, hs, hc, hl, hy⟩ := writeBurstBufferBytes_spec hb hd
    exact ⟨b', h, hb.of_spec hs hc hl hy, hs⟩
  · have hover : b.wouldOverflowBuffer d.length = true := by
      rw [wouldOverflowBuffer_iff hb.size_lt]; omega
    exact ⟨_, by rw [Burst.writeBurstBufferBytes, if_pos hover], hb.clearBurstBuffer, rfl⟩

/-- **Packing is compositional**: on a packed buffer with room for both,
packing `d₁ ++ d₂` is packing `d₁`, then `d₂`. -/
theorem writeBurstBufferBytes_append {b : Burst} (hb : b.Packed) {d₁ d₂ : List UInt8}
    (hd : b.byteCursor + d₁.length + d₂.length ≤ b.burstBufferSizeBytes) :
    b.writeBurstBufferBytes (d₁ ++ d₂) = b.writeBurstBufferBytes d₁ >>= fun b₁ => b₁.writeBurstBufferBytes d₂ := by
  obtain ⟨b₁, h₁, hs₁, hc₁, hl₁, hy₁⟩ :=
    writeBurstBufferBytes_spec hb (show b.byteCursor + d₁.length ≤ _ by omega)
  obtain ⟨b₂, h₂, hs₂, hc₂, hl₂, hy₂⟩ := writeBurstBufferBytes_spec (hb.of_spec hs₁ hc₁ hl₁ hy₁)
    (show b₁.byteCursor + d₂.length ≤ _ by omega)
  obtain ⟨b₃, h₃, hs₃, hc₃, hl₃, hy₃⟩ :=
    writeBurstBufferBytes_spec hb (show b.byteCursor + (d₁ ++ d₂).length ≤ _ by simp only [List.length_append]; omega)
  rw [h₃, h₁]
  show Except.ok b₃ = b₁.writeBurstBufferBytes d₂
  rw [h₂]
  congr 1
  obtain ⟨buf₃, size₃, cur₃⟩ := b₃
  obtain ⟨buf₂, size₂, cur₂⟩ := b₂
  simp only [List.length_append] at hs₃ hc₃ hl₃ hy₃ hs₂ hc₂ hl₂ hy₂ ⊢
  refine Burst.mk.injEq _ _ _ _ _ _ ▸ ⟨ext_byteAt (by omega) fun p => ?_, by omega, by omega⟩
  rw [hy₃, hy₂, hy₁, hc₁]
  by_cases h₂ : b.byteCursor + d₁.length ≤ p ∧ p < b.byteCursor + d₁.length + d₂.length
  · rw [if_pos (by omega), if_pos h₂, List.getD_append_right _ _ _ _ (by omega), Nat.sub_sub]
  by_cases h₁ : b.byteCursor ≤ p ∧ p < b.byteCursor + d₁.length
  · rw [if_pos (by omega), if_neg h₂, if_pos h₁, List.getD_append _ _ _ _ (by omega)]
  · rw [if_neg (by omega), if_neg h₂, if_neg h₁]

end Burst

/-! ## Every call keeps the buffer packed -/

/-- `memcpy` of whole words leaves the words after them. -/
theorem byteAt_copyWords {buf ws : List UInt16} {i : ℕ} (hle : i + ws.length ≤ buf.length) {p : ℕ}
    (hp : i + ws.length ≤ p / 2) :
    byteAt (buf.take i ++ ws ++ buf.drop (i + ws.length)) p = byteAt buf p := by
  have hg : (buf.take i ++ ws ++ buf.drop (i + ws.length)).getD (p / 2) 0 = buf.getD (p / 2) 0 := by
    rw [List.getD_append_right _ _ _ _ (by simp; omega)]
    simp only [List.getD_eq_getElem?_getD, List.getElem?_drop, List.length_append, List.length_take]
    congr 2; omega
  simp only [byteAt, hg]

theorem Burst.Packed.of_cursor_le {b : Burst} (hb : b.Packed) {c : ℕ} (hc : b.byteCursor ≤ c) :
    ({ b with byteCursor := c } : Burst).Packed :=
  ⟨hb.words, hb.size_lt, fun p hp => hb.zero p (by simp only at hp; omega)⟩

namespace Enc

variable {σ : Type} (fr : FrameScanner σ) (writeOutput : List (List UInt8) → List UInt8 → ℤ)

/-- A call's result keeps the burst buffer packed when it returns. -/
abbrev KeepsPacked {α : Type} (f : α → Enc σ) : Except Fault α → Prop :=
  Returns (fun a => (f a).burst.Packed) fun _ => True

variable {fr} {e : Enc σ}

theorem KeepsPacked.bind {α β : Type} {f : β → Enc σ} {r : Except Fault α} {g : α → Except Fault β}
    {P : α → Prop} (hr : Returns P (fun _ => True) r) (hg : ∀ a, P a → KeepsPacked f (g a)) :
    KeepsPacked f (r >>= g) :=
  Returns.bind hr hg

theorem reset_packed (he : e.burst.Packed) : (reset fr e).burst.Packed := he.clearBurstBuffer

theorem writeBurstBufferShorts_packed (he : e.burst.Packed) (ws : List UInt16) :
    KeepsPacked id (writeBurstBufferShorts fr e ws) := by
  have hb := he.of_cursor_le (show e.burst.byteCursor ≤ (e.burst.byteCursor + 1) / 2 * 2 by omega)
  unfold writeBurstBufferShorts
  dsimp only
  split
  · exact reset_packed hb
  rename_i hover
  rw [Burst.wouldOverflowBuffer_iff hb.size_lt] at hover
  simp only at hover
  unfold copyWords
  split
  · rename_i hle
    have hw := hb.words
    simp only at hw
    refine ⟨?_, hb.size_lt, fun p hp => ?_⟩
    · simp only [id, List.length_append, List.length_take, List.length_drop]; omega
    · simp only [id] at hp ⊢
      rw [byteAt_copyWords hle (by omega)]
      exact hb.zero p (by simp only; omega)
  · trivial

theorem startDataBurst_packed (he : e.burst.Packed) : KeepsPacked id (startDataBurst fr e) :=
  writeBurstBufferShorts_packed (e := { e with rateMultiplier := fr.getRateMultiplier e.framer }) he _

theorem startSyncFrame_packed (he : e.burst.Packed) :
    KeepsPacked Prod.fst (startSyncFrame fr e) := by
  obtain ⟨b, hb, hpacked, -⟩ := he.writeBurstBufferBytes (fr.header e.framer)
  unfold startSyncFrame
  simp only [hb, bind, Except.bind]
  split <;> exact hpacked

theorem sendZeroPad_packed (he : e.burst.Packed) : (sendZeroPad fr e).burst.Packed := by
  unfold sendZeroPad
  dsimp only
  split
  · exact he.clearBurstBuffer
  · exact he.of_cursor_le (by omega)

omit fr in
/-- The output loop leaves the buffer as it is. -/
theorem writeLoop_burst (e : Enc σ) (bytesWritten : ℕ) :
    Returns (fun e' => e'.burst = e.burst) (fun _ => True) (writeLoop writeOutput e bytesWritten) := by
  rw [writeLoop]
  split
  · split
    · trivial
    · dsimp only
      split
      · rfl
      split
      · trivial
      · exact writeLoop_burst _ _
  · rfl
termination_by e.burst.byteCursor - bytesWritten
decreasing_by simp_wf; omega

theorem flushBurstBuffer_packed (he : e.burst.Packed) :
    KeepsPacked id (flushBurstBuffer fr writeOutput e) := by
  unfold flushBurstBuffer
  split
  · rename_i hgt
    unfold writeWord
    split
    · rename_i h3
      have hw : ({ e with burst := { e.burst with burstBuffer := (e.burst.burstBuffer.set 3
          (fr.convertBytesToLengthCode e.framer (e.burst.byteCursor - 8).toUInt16)) } } : Enc σ).burst.Packed :=
        ⟨by simpa using he.words, he.size_lt, fun p hp => by
          rw [byteAt_set_of_ne _ (by simp only at hp; omega)]; exact he.zero p hp⟩
      simp only [bind, Except.bind]
      exact Returns.bind (writeLoop_burst writeOutput _ 0) fun e' he' =>
        reset_packed (by rw [he']; exact sendZeroPad_packed hw)
    · trivial
  · exact reset_packed he

/-- One pass of `write`'s loop body keeps the buffer packed. -/
theorem writeIteration_packed (he : e.burst.Packed) (x : UInt8) (rest : List UInt8) :
    KeepsPacked Prod.fst (writeIteration fr writeOutput e x rest) := by
  unfold writeIteration
  split
  · dsimp only
    have h₁ : ({ e with framer := (fr.scan e.framer x).1 } : Enc σ).burst.Packed := he
    split
    · have tail : ∀ r : Except Fault (Enc σ), KeepsPacked id r → KeepsPacked Prod.fst (r >>= fun e =>
          startSyncFrame fr e >>= fun p => pure ({ p.1 with payloadBytesPending := p.2, scanning := false }, rest)) :=
        fun r hr => KeepsPacked.bind hr fun _ he' => KeepsPacked.bind (startSyncFrame_packed he') fun _ hp => hp
      split
      · exact tail _ (startDataBurst_packed h₁)
      split
      · exact KeepsPacked.bind (flushBurstBuffer_packed writeOutput h₁) fun _ he' =>
          tail _ (startDataBurst_packed he')
      · exact tail _ h₁
    · exact h₁
  · dsimp only
    obtain ⟨b, hb, hpacked, -⟩ :=
      he.writeBurstBufferBytes ((x :: rest).take (min (x :: rest).length e.payloadBytesPending))
    rw [hb]
    dsimp only
    split
    · split
      · exact KeepsPacked.bind (flushBurstBuffer_packed writeOutput hpacked) fun _ he' => he'
      · exact hpacked
    · exact hpacked

theorem writeLoopFuel_packed : ∀ (fuel : ℕ) (e : Enc σ) (data : List UInt8) (r : Except Fault (Enc σ)),
    e.burst.Packed → writeLoopFuel fr writeOutput fuel e data = some r → KeepsPacked id r
  | _, e, [], r, he, h => by rw [writeLoopFuel] at h; cases h; exact he
  | 0, e, x :: rest, r, _, h => by rw [writeLoopFuel] at h; cases h
  | fuel + 1, e, x :: rest, r, he, h => by
    have hit : KeepsPacked Prod.fst (writeIteration fr writeOutput e x rest) :=
      writeIteration_packed writeOutput he x rest
    rw [writeLoopFuel] at h
    cases hr : writeIteration fr writeOutput e x rest with
    | error f => rw [hr] at h; cases h; trivial
    | ok p => rw [hr] at h hit; exact writeLoopFuel_packed fuel p.1 p.2 r hit h

theorem writeData_packed (he : e.burst.Packed) (data : List UInt8) :
    KeepsPacked id (writeData fr writeOutput e data) :=
  writeLoopFuel_packed writeOutput _ e data _ he
    (writeLoopFuel_eq fr writeOutput (2 * data.length + 1) e data (by unfold loopMeasure; split <;> omega))

/-- Every call keeps the buffer packed. -/
theorem apply_packed (he : e.burst.Packed) (c : Call) : KeepsPacked id (apply fr writeOutput e c) := by
  cases c with
  | write data => rw [apply_write]; exact writeData_packed writeOutput he data
  | flushBurstBuffer => exact flushBurstBuffer_packed writeOutput he
  | reset => exact reset_packed he

/-- **Every reachable encoder keeps its buffer packed**: zero from the cursor on. -/
theorem Reach.packed (hmax : 2 * kSpdifEncodedChannelCount * fr.getMaxSampleFramesPerSyncFrame < 2 ^ 64)
    (h : Reach fr writeOutput e) : e.burst.Packed := by
  induction h with
  | new s =>
    refine Burst.Packed.clearBurstBuffer ⟨?_, hmax, fun p _ => byteAt_replicate_zero _ p⟩
    simp only [List.length_replicate, kSpdifEncodedChannelCount]; omega
  | step c _ happ ih =>
    have : KeepsPacked id (apply fr writeOutput _ c) := apply_packed writeOutput ih c
    rwa [happ] at this

end Enc

/-- **SPDIF byte packing is exact.** In every encoder state reached from the
constructor by `write`, `flushBurstBuffer` and `reset`, every logical byte from
`mByteCursor` on is zero. For every byte sequence with room in the buffer,
`writeBurstBufferBytes` sets logical byte `mByteCursor + k` to its `k`-th byte,
leaves every other byte, advances the cursor by its length and keeps the buffer
zero from the new cursor on; and packing `d₁ ++ d₂` is packing `d₁`, then `d₂`.
The buffer size must fit a `size_t`. -/
theorem spdif_packing_exact {σ : Type} (fr : FrameScanner σ)
    (writeOutput : List (List UInt8) → List UInt8 → ℤ) {e : Enc σ}
    (hmax : 2 * kSpdifEncodedChannelCount * fr.getMaxSampleFramesPerSyncFrame < 2 ^ 64)
    (h : Enc.Reach fr writeOutput e) :
    e.burst.ZeroAbove ∧
      (∀ d : List UInt8, e.burst.byteCursor + d.length ≤ e.burst.burstBufferSizeBytes →
        ∃ b', e.burst.writeBurstBufferBytes d = .ok b' ∧
          b'.byteCursor = e.burst.byteCursor + d.length ∧
          (∀ k (hk : k < d.length), byteAt b'.burstBuffer (e.burst.byteCursor + k) = d[k]) ∧
          (∀ p, p < e.burst.byteCursor ∨ e.burst.byteCursor + d.length ≤ p →
            byteAt b'.burstBuffer p = byteAt e.burst.burstBuffer p) ∧
          b'.ZeroAbove) ∧
      ∀ d₁ d₂ : List UInt8, e.burst.byteCursor + d₁.length + d₂.length ≤ e.burst.burstBufferSizeBytes →
        e.burst.writeBurstBufferBytes (d₁ ++ d₂) =
          e.burst.writeBurstBufferBytes d₁ >>= fun b₁ => b₁.writeBurstBufferBytes d₂ := by
  have he := h.packed writeOutput hmax
  refine ⟨he.zero, fun d hd => ?_, fun d₁ d₂ hd => Burst.writeBurstBufferBytes_append he hd⟩
  obtain ⟨b', hw, hs, hc, hl, hy⟩ := Burst.writeBurstBufferBytes_spec he hd
  refine ⟨b', hw, hc, fun k hk => ?_, fun p hp => by rw [hy, if_neg (by omega)],
    (he.of_spec hs hc hl hy).zero⟩
  rw [hy, if_pos (by omega), Nat.add_sub_cancel_left, List.getD_eq_getElem _ _ hk]

/-- The encoder just built for the made-up format: its buffer is zero, and
packing three bytes sets bytes `0`, `1`, `2`. -/
theorem spdif_packing_exact_new :
    (Enc.new toyScanner ()).burst.ZeroAbove ∧
      (∀ d : List UInt8, (Enc.new toyScanner ()).burst.byteCursor + d.length ≤
          (Enc.new toyScanner ()).burst.burstBufferSizeBytes →
        ∃ b', (Enc.new toyScanner ()).burst.writeBurstBufferBytes d = .ok b' ∧
          b'.byteCursor = (Enc.new toyScanner ()).burst.byteCursor + d.length ∧
          (∀ k (hk : k < d.length), byteAt b'.burstBuffer ((Enc.new toyScanner ()).burst.byteCursor + k) = d[k]) ∧
          (∀ p, p < (Enc.new toyScanner ()).burst.byteCursor ∨
              (Enc.new toyScanner ()).burst.byteCursor + d.length ≤ p →
            byteAt b'.burstBuffer p = byteAt (Enc.new toyScanner ()).burst.burstBuffer p) ∧
          b'.ZeroAbove) ∧
      ∀ d₁ d₂ : List UInt8, (Enc.new toyScanner ()).burst.byteCursor + d₁.length + d₂.length ≤
          (Enc.new toyScanner ()).burst.burstBufferSizeBytes →
        (Enc.new toyScanner ()).burst.writeBurstBufferBytes (d₁ ++ d₂) =
          (Enc.new toyScanner ()).burst.writeBurstBufferBytes d₁ >>= fun b₁ => b₁.writeBurstBufferBytes d₂ :=
  spdif_packing_exact toyScanner acceptAll (by decide) (Enc.Reach.new ())

end AudioUtils
