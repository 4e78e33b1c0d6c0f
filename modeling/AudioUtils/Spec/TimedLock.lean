import Mathlib.Algebra.Group.Int
import Mathlib.Algebra.Order.Group.Int

/-!
# The deadline of a timed lock

The timed branch of `mutex_impl::try_lock` and `std_mutex_timed_lock` turn a
relative `timeout_ns` into the absolute `timespec` that
`pthread_mutex_timedlock` waits for:

* `safeAddSat`: the deadline `safe_add_sat(timeout_ns, now)` in `int64_t`.
* `castSigned`: `static_cast` to a signed type of a given width.
* `deadlineTimespec`: the `timespec`, with `time_t` and `long` of any width.

Integers are `ℤ`; C++'s `/` and `%` on `int64_t` truncate, as `Int.tdiv` and
`Int.tmod` do.
-/

namespace AudioUtils

/-- `INT64_MAX`. -/
def int64Max : ℤ := 2 ^ 63 - 1

/-- `INT64_MIN`. -/
def int64Min : ℤ := -2 ^ 63

/-- Modelled from the spec: `safe_add_sat` of `audio_utils/safe_math.h`, which is
not among the sources: the sum of two `int64_t`s, saturated at `INT64_MIN` and
`INT64_MAX`. -/
def safeAddSat (a b : ℤ) : ℤ := max int64Min (min int64Max (a + b))

/-- `static_cast` of an integer to a signed type of `bits` bits: the value modulo
`2^bits`, in the type's range. -/
def castSigned (bits : ℕ) (x : ℤ) : ℤ := x.bmod (2 ^ bits)

/-- `struct timespec`. -/
structure Timespec where
  tvSec : ℤ
  tvNsec : ℤ
  deriving DecidableEq, Repr

/-- The `timespec` both timed locks build from `timeout_ns` and the realtime
clock reading `now`, for a `time_t` of `timeBits` bits and a `long` of
`longBits` bits. -/
def deadlineTimespec (timeBits longBits : ℕ) (timeoutNs now : ℤ) : Timespec :=
  let deadlineNs := safeAddSat timeoutNs now
  { tvSec := castSigned timeBits (deadlineNs.tdiv 1000000000)
    tvNsec := castSigned longBits (deadlineNs.tmod 1000000000) }

/-- The instant a `timespec` names, in nanoseconds. -/
def Timespec.toNs (ts : Timespec) : ℤ := ts.tvSec * 1000000000 + ts.tvNsec

end AudioUtils
