import AudioUtils.Spec.ThreadInfo

/-!
# `mutex_impl` and its instrumentation

The configuration `AudioMutexAttributes`, the per-order statistics
`mutex_stat`, and the hooks of `lock_scoped_stat_enabled` and
`cv_wait_scoped_stat_enabled` that every lock, unlock and condition-variable
wait runs on the calling thread's descriptor.

`Ctx` is what the instrumentation of one thread reads and writes: the
process-wide statistics array and the thread's own `thread_mutex_info`. The
thread's complete operations (`Op`) are the public calls of `mutex`,
`unique_lock<mutex>`, `lock_guard`, `condition_variable` and the scoped wait
checks, each as the sequence of hooks the source runs. Whether an OS-level
`try_lock` or timed lock succeeds is the operation's argument.
-/

namespace AudioUtils

/-- The static configuration of `mutex_impl<Attributes>`. -/
structure Attributes where
  orderSize_ : ℕ
  orderNames_ : List String
  orderDefault_ : ℕ
  mutexTrackingEnabled_ : Bool
  mutexStackDepth_ : ℕ
  abortOnOrderCheck_ : Bool
  abortOnRecursionCheck_ : Bool
  abortOnInvalidUnlock_ : Bool

/-- `gMutexNames`, indexed by `MutexOrder`. -/
def gMutexNames : List String :=
  ["Spatializer_Mutex", "AudioPolicyEffects_Mutex", "EffectHandle_Mutex",
    "EffectBase_PolicyMutex", "AudioPolicyService_Mutex", "CommandThread_Mutex",
    "AudioCommand_Mutex", "UidPolicy_Mutex", "AudioFlinger_Mutex", "DeviceEffectManager_Mutex",
    "DeviceEffectProxy_ProxyMutex", "DeviceEffectHandle_Mutex", "PatchCommandThread_Mutex",
    "ThreadBase_Mutex", "AudioFlinger_ClientMutex", "EffectChain_Mutex", "EffectBase_Mutex",
    "AudioFlinger_HardwareMutex", "MelReporter_Mutex", "AudioFlinger_UnregisteredWritersMutex",
    "AsyncCallbackThread_Mutex", "ConfigEvent_Mutex", "OutputTrack_TrackMetadataMutex",
    "PassthruPatchRecord_ReadMutex", "PatchCommandThread_ListenerMutex",
    "PlaybackThread_AudioTrackCbMutex", "AudioPolicyService_NotificationClientsMutex",
    "MediaLogNotifier_Mutex", "OtherMutex"]

/-- `AudioMutexAttributes`: 29 orders, `kOtherMutex` by default, tracking on,
16 tracked mutexes per thread, every check fatal. -/
def audioMutexAttributes : Attributes where
  orderSize_ := 29
  orderNames_ := gMutexNames
  orderDefault_ := 28
  mutexTrackingEnabled_ := true
  mutexStackDepth_ := 16
  abortOnOrderCheck_ := true
  abortOnRecursionCheck_ := true
  abortOnInvalidUnlock_ := true

/-- An `audio_utils::mutex`: its address, which the instrumentation records as
the handle and is never `nullptr`, and its `order_`, which the constructor
checks against `order_size_`. -/
structure Mutex (A : Attributes) where
  handle : ℕ
  order_ : ℕ
  handle_ne : handle ≠ 0
  order_lt : order_ < A.orderSize_

/-- `mutex_stat<uint64_t, double>`: the three counters. The wait-time sums are
`double`s and are left out. -/
structure MutexStat where
  locks : ℕ := 0
  unlocks : ℕ := 0
  waits : ℕ := 0
  deriving DecidableEq, Repr

/-- `to_string`'s `uncontested`: `locks - waits` in `uint64_t`. -/
def MutexStat.uncontested (s : MutexStat) : UInt64 := s.locks.toUInt64 - s.waits.toUInt64

/-- The `LOG_ALWAYS_FATAL` sites of the instrumentation, with their arguments. -/
inductive Fatal
  | invalidOrder (previous new : ℕ)
  | recursiveAccess (order : ℕ)
  | invalidUnlock (func : String)
  deriving DecidableEq, Repr

/-- The name of an order in `order_names_`. -/
def Attributes.name (A : Attributes) (order : ℕ) : String := A.orderNames_.getD order ""

/-- The text each fatal error logs. -/
def Fatal.message (A : Attributes) : Fatal → String
  | .invalidOrder p m => "pre_lock: invalid mutex order (previous) " ++ toString p ++ " " ++
      A.name p ++ "> (new) " ++ toString m ++ " " ++ A.name m
  | .recursiveAccess p => "pre_lock: recursive mutex access detected (order: " ++ toString p ++
      " " ++ A.name p ++ ")"
  | .invalidUnlock func => func ++ ": invalid mutex unlock when not previously held"

/-- What one thread's instrumentation reads and writes: `get_mutex_stat_array()`
and its own `thread_mutex_info`. -/
structure Ctx (A : Attributes) where
  stats : ℕ → MutexStat
  info : ThreadMutexInfo A.mutexStackDepth_

namespace Ctx

variable {A : Attributes}

/-- Apply `f` to the statistics of one order. -/
def modifyStat (c : Ctx A) (order : ℕ) (f : MutexStat → MutexStat) : Ctx A :=
  { c with stats := Function.update c.stats order (f (c.stats order)) }

/-- `lock_scoped_stat_enabled(m)`: count a wait and mark the thread as waiting
on `m`. -/
def lockScopedStat (c : Ctx A) (m : Mutex A) : Ctx A :=
  if A.mutexTrackingEnabled_ then
    let c := c.modifyStat m.order_ fun s => { s with waits := s.waits + 1 }
    { c with info := c.info.resetWaiter m.handle }
  else c

/-- `~lock_scoped_stat_enabled()`: the thread no longer waits. -/
def lockScopedStatEnd (c : Ctx A) : Ctx A :=
  if A.mutexTrackingEnabled_ then { c with info := c.info.resetWaiter } else c

/-- `pre_unlock(m)`: count the unlock and take `m` off the held stack, fatal if
it is not found. -/
def preUnlock (c : Ctx A) (m : Mutex A) : Except Fatal (Ctx A) :=
  if A.mutexTrackingEnabled_ then
    let c := c.modifyStat m.order_ fun s => { s with unlocks := s.unlocks + 1 }
    let r := c.info.removeHeld m.handle
    if A.abortOnInvalidUnlock_ && !r.1 then .error (.invalidUnlock "pre_unlock")
    else .ok { c with info := r.2 }
  else .ok c

/-- `pre_lock(m)`: the order and recursion checks against `check_held`. -/
def preLock (c : Ctx A) (m : Mutex A) : Except Fatal Unit :=
  if !A.mutexTrackingEnabled_ || (!A.abortOnOrderCheck_ && !A.abortOnRecursionCheck_) then
    .ok ()
  else
    let p := c.info.checkHeld m.handle m.order_
    if p.1 = 0 then .ok ()
    else if A.abortOnOrderCheck_ && p.2 > m.order_ then .error (.invalidOrder p.2 m.order_)
    else if A.abortOnRecursionCheck_ && p.2 = m.order_ then .error (.recursiveAccess p.2)
    else .ok ()

/-- `post_lock(m)`: count the lock and push `m` on the held stack. -/
def postLock (c : Ctx A) (m : Mutex A) : Ctx A :=
  if A.mutexTrackingEnabled_ then
    let c := c.modifyStat m.order_ fun s => { s with locks := s.locks + 1 }
    { c with info := c.info.pushHeld m.handle m.order_ }
  else c

/-- `cv_wait_scoped_stat_enabled(m, notifier_tid)`: count an unlock and take `m`
off the held stack, recording the wait on `notifier_tid`; fatal if `m` is not
found. -/
def cvWaitBegin (c : Ctx A) (m : Mutex A) (notifierTid : ℤ) : Except Fatal (Ctx A) :=
  if A.mutexTrackingEnabled_ then
    let c := c.modifyStat m.order_ fun s => { s with unlocks := s.unlocks + 1 }
    let r := c.info.removeHeldForCv m.handle m.order_ notifierTid
    if A.abortOnInvalidUnlock_ && !r.1 then .error (.invalidUnlock "cv_wait_scoped_stat_enabled")
    else .ok { c with info := r.2 }
  else .ok c

/-- `~cv_wait_scoped_stat_enabled()`: count a lock and put `m` back on top. -/
def cvWaitEnd (c : Ctx A) (m : Mutex A) : Ctx A :=
  if A.mutexTrackingEnabled_ then
    let c := c.modifyStat m.order_ fun s => { s with locks := s.locks + 1 }
    { c with info := c.info.pushHeldForCv m.handle m.order_ }
  else c

end Ctx

/-- A complete operation of one thread.

* `lock m uncontested`: `mutex::lock`, `unique_lock<mutex>::lock` and their
  constructors, `lock_guard`; `uncontested` says whether the first `try_lock` won.
* `tryLock m timeoutNs acquired`: `mutex::try_lock(timeout_ns)`. The
  `unique_lock<mutex>` members `try_lock`, `try_lock_for` and `try_lock_until`
  run the hooks of its `timeout_ns <= 0` branch.
* `unlock m`: `mutex::unlock`, `unique_lock<mutex>::unlock` and its destructor
  when it owns the lock, the `lock_guard` destructor.
* `cvWaitBegin`/`cvWaitEnd`: entry to and exit from any `condition_variable`
  wait through a `unique_lock` on `m`.
* `joinWait`/`queueWait`: the scoped join and queue wait checks. -/
inductive Op (A : Attributes)
  | lock (m : Mutex A) (uncontested : Bool)
  | tryLock (m : Mutex A) (timeoutNs : ℤ) (acquired : Bool)
  | unlock (m : Mutex A)
  | cvWaitBegin (m : Mutex A) (notifierTid : ℤ)
  | cvWaitEnd (m : Mutex A)
  | joinWaitBegin (tid : ℤ)
  | joinWaitEnd
  | queueWaitBegin (tid : ℤ)
  | queueWaitEnd

namespace Ctx

variable {A : Attributes}

/-- One complete operation: the hooks in the order the source runs them. -/
def apply (c : Ctx A) : Op A → Except Fatal (Ctx A)
  | .lock m uncontested => do
    c.preLock m
    pure (if uncontested then c.postLock m else ((c.lockScopedStat m).lockScopedStatEnd).postLock m)
  | .tryLock m timeoutNs acquired => do
    c.preLock m
    let c := if timeoutNs ≤ 0 then c else (c.lockScopedStat m).lockScopedStatEnd
    pure (if acquired then c.postLock m else c)
  | .unlock m => c.preUnlock m
  | .cvWaitBegin m notifierTid => c.cvWaitBegin m notifierTid
  | .cvWaitEnd m => pure (c.cvWaitEnd m)
  | .joinWaitBegin tid => pure { c with info := c.info.addWaitJoin tid }
  | .joinWaitEnd => pure { c with info := c.info.removeWaitJoin }
  | .queueWaitBegin tid => pure { c with info := c.info.addWaitQueue tid }
  | .queueWaitEnd => pure { c with info := c.info.removeWaitQueue }

/-- A sequence of complete operations; a fatal error ends it. -/
def run (c : Ctx A) : List (Op A) → Except Fatal (Ctx A)
  | [] => .ok c
  | op :: ops => c.apply op >>= fun c => run c ops

end Ctx

/-- The calls that libc++'s two-mutex std::lock, run by the constructor of
audio_utils::scoped_lock<Mutex1, Mutex2> through std::scoped_lock, makes on the
mutexes: lock the first and try_lock the second; when that fails, unlock the
first and start over with the two swapped. Each attempt gives whether the lock
was uncontested and whether the try_lock acquired. -/
def scopedLock (m₁ m₂ : Mutex A) : List (Bool × Bool) → List (Op A)
  | [] => []
  | (uncontested, acquired) :: attempts =>
    .lock m₁ uncontested :: .tryLock m₂ 0 acquired ::
      if acquired then [] else .unlock m₁ :: scopedLock m₂ m₁ attempts

end AudioUtils
