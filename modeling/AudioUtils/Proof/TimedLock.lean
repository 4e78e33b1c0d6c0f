import AudioUtils.Spec.TimedLock
import Mathlib.Algebra.Order.Ring.Int
import Mathlib.Algebra.Order.GroupWithZero.Unbundled

/-!
# The deadline of a timed lock

The deadline itself is right: `safe_add_sat` of a positive timeout and a clock
reading is their sum, saturated at `INT64_MAX`. The `timespec` names that instant
exactly when its seconds fit `time_t`, which a 64-bit `time_t` always does. A
32-bit `time_t` wraps for deadlines from 2038 on, and the lock then waits for a
deadline in the past.
-/

namespace AudioUtils

theorem int64Max_eq : int64Max = 9223372036854775807 := rfl

theorem int64Min_eq : int64Min = -9223372036854775808 := rfl

/-- For a nonnegative timeout and clock reading, the deadline is their sum,
saturated at `INT64_MAX`. -/
theorem safeAddSat_of_nonneg {a b : ℤ} (ha : 0 ≤ a) (hb : 0 ≤ b) :
    safeAddSat a b = min (a + b) int64Max := by
  rw [safeAddSat, int64Min_eq, int64Max_eq]
  omega

/-- `static_cast` keeps a nonnegative value that fits the type. -/
theorem castSigned_of_nonneg {bits : ℕ} {x : ℤ} (h0 : 0 ≤ x) (h : 2 * x < 2 ^ bits) :
    castSigned bits x = x := by
  have hx : x % ((2 ^ bits : ℕ) : ℤ) = x := Int.emod_eq_of_lt h0 (by push_cast; omega)
  rw [castSigned, Int.bmod_pos _ _ (by rw [hx]; push_cast; omega), hx]

/-- **The `timespec` is exact when its seconds fit `time_t`.** For a positive
timeout and a clock reading in `int64_t`, with a `long` of at least 32 bits as C
guarantees: `tv_nsec` is in `[0, 10^9)` and the `timespec` names the deadline,
which is not before `now`. -/
theorem deadlineTimespec_exact {timeBits longBits : ℕ} (hlong : 32 ≤ longBits) {timeoutNs now : ℤ}
    (ht : 0 < timeoutNs) (hn : 0 ≤ now) (hn' : now ≤ int64Max)
    (hsec : 2 * (safeAddSat timeoutNs now / 1000000000) < 2 ^ timeBits) :
    0 ≤ (deadlineTimespec timeBits longBits timeoutNs now).tvNsec ∧
      (deadlineTimespec timeBits longBits timeoutNs now).tvNsec < 1000000000 ∧
      (deadlineTimespec timeBits longBits timeoutNs now).toNs = safeAddSat timeoutNs now ∧
      now ≤ (deadlineTimespec timeBits longBits timeoutNs now).toNs := by
  have hd := safeAddSat_of_nonneg ht.le hn
  have hd0 : 0 ≤ safeAddSat timeoutNs now := by rw [hd]; exact le_min (by omega) (by omega)
  have hpow : (2 : ℤ) ^ 32 ≤ 2 ^ longBits := pow_le_pow_right₀ (by decide) hlong
  have hns : 2 * (safeAddSat timeoutNs now % 1000000000) < 2 ^ longBits := by omega
  simp only [deadlineTimespec, Timespec.toNs, Int.tdiv_eq_ediv hd0 (by decide : (0 : ℤ) ≤ 1000000000),
    Int.tmod_eq_emod hd0 (by decide : (0 : ℤ) ≤ 1000000000),
    castSigned_of_nonneg (Int.ediv_nonneg hd0 (by decide)) hsec,
    castSigned_of_nonneg (Int.emod_nonneg _ (by decide)) hns]
  omega

/-- **With a 64-bit `time_t`, no positive timeout becomes a deadline in the
past.** For every positive `int64_t` timeout and clock reading `0 ≤ now`, and a
`long` of at least 32 bits, the deadline is `min(now + timeout_ns, INT64_MAX)`,
`tv_nsec` is in `[0, 10^9)` and the `timespec` names the deadline. -/
theorem deadlineTimespec_time64 {longBits : ℕ} (hlong : 32 ≤ longBits) {timeoutNs now : ℤ}
    (ht : 0 < timeoutNs) (hn : 0 ≤ now) (hn' : now ≤ int64Max) :
    safeAddSat timeoutNs now = min (now + timeoutNs) int64Max ∧
      0 ≤ (deadlineTimespec 64 longBits timeoutNs now).tvNsec ∧
      (deadlineTimespec 64 longBits timeoutNs now).tvNsec < 1000000000 ∧
      (deadlineTimespec 64 longBits timeoutNs now).toNs = safeAddSat timeoutNs now ∧
      now ≤ (deadlineTimespec 64 longBits timeoutNs now).toNs := by
  have hd := safeAddSat_of_nonneg ht.le hn
  refine ⟨by rw [hd, add_comm], deadlineTimespec_exact hlong ht hn hn' ?_⟩
  have : safeAddSat timeoutNs now ≤ int64Max := by rw [hd]; exact min_le_right _ _
  rw [int64Max_eq] at this
  omega

/-- The `int64_t` limits with a `long` of 64 bits. -/
theorem deadlineTimespec_time64_max :
    0 < int64Max ∧ deadlineTimespec 64 64 int64Max int64Max = ⟨9223372036, 854775807⟩ ∧
      safeAddSat int64Max int64Max = min (int64Max + int64Max) int64Max ∧
      0 ≤ (deadlineTimespec 64 64 int64Max int64Max).tvNsec ∧
      (deadlineTimespec 64 64 int64Max int64Max).tvNsec < 1000000000 ∧
      (deadlineTimespec 64 64 int64Max int64Max).toNs = safeAddSat int64Max int64Max ∧
      int64Max ≤ (deadlineTimespec 64 64 int64Max int64Max).toNs :=
  ⟨by decide, by decide,
    deadlineTimespec_time64 le_rfl (by decide) (by decide) le_rfl⟩

/-- **A 32-bit `time_t` wraps.** A timeout of `3 * 10^18` ns at the clock
reading `10^18` ns (2001, `10^9` seconds, which a 32-bit `time_t` holds): the
deadline's `4 * 10^9` seconds wrap to `-294967296`, a deadline in 1960, before
`now`. -/
theorem deadline_wraps_time32 :
    2 * ((10 ^ 18 : ℤ) / 1000000000) < 2 ^ 32 ∧
      safeAddSat (3 * 10 ^ 18) (10 ^ 18) = 4 * 10 ^ 18 ∧
      deadlineTimespec 32 32 (3 * 10 ^ 18) (10 ^ 18) = ⟨-294967296, 0⟩ ∧
      (deadlineTimespec 32 32 (3 * 10 ^ 18) (10 ^ 18)).toNs < 10 ^ 18 := by
  decide

end AudioUtils
