import AudioUtils.Spec.Mutex

/-!
# Threads sharing `audio_utils::mutex`es

The process as a transition system: the statistics array, every thread's
descriptor and the point it has reached in its current call, and which thread
owns each OS mutex (`std::mutex m_`). An `Event` is one atomic step of one
thread. A call that can block is split at the blocking point: `lock` counts its
wait and marks the thread as waiting, and `lockAcquire` is the return of
`m_.lock()`; likewise the timed branch of `try_lock` and `pthread_mutex_timedlock`,
and a condition-variable wait and its reacquisition of the mutex.

The overloads of `wait`, `wait_for` and `wait_until` with a `stop_waiting`
predicate run the wait's constructor once, then `while (!stop_waiting())
cv_.wait(lock)`, then its destructor. `stop_waiting` runs with the OS mutex
owned but off the held stack and the counters: such a mutex is in `cvHeld`, and
its thread is idle, free to lock other mutexes, until `cvPredicate`.

`std::mutex::try_lock` may fail spuriously, so the contended branch of `lock` and
a failing `try_lock` are allowed in any state; acquiring needs the mutex free.
-/

namespace AudioUtils

variable {A : Attributes}

deriving instance DecidableEq for Mutex

/-- Where a thread is in its current call. -/
inductive Phase (A : Attributes)
  | idle
  /-- In `mutex::lock` or `unique_lock::lock`, blocked in `m_.lock()`. -/
  | lockWait (m : Mutex A)
  /-- In `mutex::try_lock(timeout_ns)`, `timeout_ns > 0`, blocked in `pthread_mutex_timedlock`. -/
  | timedWait (m : Mutex A)
  /-- In a `condition_variable` wait on `m`, blocked in `cv_.wait` with `m`
  released; `predicate` for the overloads with `stop_waiting`. -/
  | cvWait (m : Mutex A) (predicate : Bool)
  deriving DecidableEq

/-- A thread: its `thread_mutex_info` and its phase. -/
structure Thread (A : Attributes) where
  info : ThreadMutexInfo A.mutexStackDepth_
  phase : Phase A

/-- The process: `get_mutex_stat_array()`, the threads by tid, and the owned OS
mutexes with their owners. -/
structure Sys (A : Attributes) where
  stats : ℕ → MutexStat
  threads : ℤ → Thread A
  held : List (Mutex A × ℤ)
  /-- The OS mutexes owned by a thread evaluating the `stop_waiting` of a
  predicate wait on them, innermost first: not on its held stack. -/
  cvHeld : List (Mutex A × ℤ)

/-- One atomic step of the thread `tid`. -/
inductive Event (A : Attributes)
  | lock (tid : ℤ) (m : Mutex A) (uncontested : Bool)
  | lockAcquire (tid : ℤ)
  | tryLock (tid : ℤ) (m : Mutex A) (timeoutNs : ℤ) (acquired : Bool)
  | timedLockReturn (tid : ℤ) (acquired : Bool)
  | unlock (tid : ℤ) (m : Mutex A)
  | cvWaitBegin (tid : ℤ) (m : Mutex A) (notifierTid : ℤ) (predicate : Bool)
  /-- `stop_waiting` of the innermost predicate wait returns: the wait `returns`
  (`stop_waiting()` is true, or a timed wait timed out), or waits again. -/
  | cvPredicate (tid : ℤ) (returns : Bool)
  | cvWaitEnd (tid : ℤ)
  | joinWaitBegin (tid waitingTid : ℤ)
  | joinWaitEnd (tid : ℤ)
  | queueWaitBegin (tid waitingTid : ℤ)
  | queueWaitEnd (tid : ℤ)

namespace Sys

/-- No thread starts with a descriptor in use, a counter or a mutex. -/
def init : Sys A := ⟨fun _ => {}, fun tid => ⟨.new tid, .idle⟩, [], []⟩

/-- The OS mutex of `m` is not owned. -/
def Free (s : Sys A) (m : Mutex A) : Prop := ∀ p ∈ s.held ++ s.cvHeld, p.1.handle ≠ m.handle

instance (s : Sys A) (m : Mutex A) : Decidable (s.Free m) :=
  inferInstanceAs (Decidable (∀ p ∈ s.held ++ s.cvHeld, p.1.handle ≠ m.handle))

/-- The mutex of thread `tid`'s innermost predicate wait, if it evaluates one. -/
def cvTop (s : Sys A) (tid : ℤ) : Option (Mutex A) :=
  (s.cvHeld.find? fun p => p.2 = tid).map Prod.fst

/-- The instrumentation context of thread `tid`. -/
def ctx (s : Sys A) (tid : ℤ) : Ctx A := ⟨s.stats, (s.threads tid).info⟩

/-- Install thread `tid`'s context and phase after a step. -/
def set (s : Sys A) (tid : ℤ) (c : Ctx A) (phase : Phase A) : Sys A :=
  { s with stats := c.stats, threads := Function.update s.threads tid ⟨c.info, phase⟩ }

/-- `m` becomes owned by `tid`. -/
def acquire (s : Sys A) (m : Mutex A) (tid : ℤ) : Sys A := { s with held := (m, tid) :: s.held }

/-- `tid` releases `m`. -/
def release (s : Sys A) (m : Mutex A) (tid : ℤ) : Sys A := { s with held := s.held.erase (m, tid) }

/-- `tid`, owning `m`, starts evaluating `stop_waiting`. -/
def park (s : Sys A) (m : Mutex A) (tid : ℤ) : Sys A :=
  { s with held := s.held.erase (m, tid), cvHeld := (m, tid) :: s.cvHeld }

/-- `tid`, owning `m`, returns from its predicate wait. -/
def unpark (s : Sys A) (m : Mutex A) (tid : ℤ) : Sys A :=
  { s with held := (m, tid) :: s.held, cvHeld := s.cvHeld.erase (m, tid) }

/-- The predicate loop's `cv_.wait` releases `m`. -/
def cvRelease (s : Sys A) (m : Mutex A) (tid : ℤ) : Sys A := { s with cvHeld := s.cvHeld.erase (m, tid) }

/-- The predicate loop's `cv_.wait` returns with `m` reacquired. -/
def cvAcquire (s : Sys A) (m : Mutex A) (tid : ℤ) : Sys A := { s with cvHeld := (m, tid) :: s.cvHeld }

/-- One step: the state after it, or `none` when the event cannot happen here
or ends the process with a fatal error. -/
def step (s : Sys A) : Event A → Option (Sys A)
  | .lock tid m uncontested =>
    match (s.threads tid).phase, (s.ctx tid).preLock m with
    | .idle, .ok () =>
      if uncontested then
        if s.Free m then some ((s.set tid ((s.ctx tid).postLock m) .idle).acquire m tid) else none
      else some (s.set tid ((s.ctx tid).lockScopedStat m) (.lockWait m))
    | _, _ => none
  | .lockAcquire tid =>
    match (s.threads tid).phase with
    | .lockWait m =>
      if s.Free m then
        some ((s.set tid ((s.ctx tid).lockScopedStatEnd.postLock m) .idle).acquire m tid)
      else none
    | _ => none
  | .tryLock tid m timeoutNs acquired =>
    match (s.threads tid).phase, (s.ctx tid).preLock m with
    | .idle, .ok () =>
      if timeoutNs ≤ 0 then
        if acquired then
          if s.Free m then some ((s.set tid ((s.ctx tid).postLock m) .idle).acquire m tid) else none
        else some s
      else some (s.set tid ((s.ctx tid).lockScopedStat m) (.timedWait m))
    | _, _ => none
  | .timedLockReturn tid acquired =>
    match (s.threads tid).phase with
    | .timedWait m =>
      if acquired then
        if s.Free m then
          some ((s.set tid ((s.ctx tid).lockScopedStatEnd.postLock m) .idle).acquire m tid)
        else none
      else some (s.set tid (s.ctx tid).lockScopedStatEnd .idle)
    | _ => none
  | .unlock tid m =>
    match (s.threads tid).phase with
    | .idle =>
      if (m, tid) ∈ s.held then
        match (s.ctx tid).preUnlock m with
        | .ok c => some ((s.set tid c .idle).release m tid)
        | .error _ => none
      else none
    | _ => none
  | .cvWaitBegin tid m notifierTid predicate =>
    match (s.threads tid).phase with
    | .idle =>
      if (m, tid) ∈ s.held then
        match (s.ctx tid).cvWaitBegin m notifierTid with
        | .ok c =>
          if predicate then some ((s.set tid c .idle).park m tid)
          else some ((s.set tid c (.cvWait m false)).release m tid)
        | .error _ => none
      else none
    | _ => none
  | .cvPredicate tid returns =>
    match (s.threads tid).phase, s.cvTop tid with
    | .idle, some m =>
      if returns then some ((s.set tid ((s.ctx tid).cvWaitEnd m) .idle).unpark m tid)
      else some ((s.set tid (s.ctx tid) (.cvWait m true)).cvRelease m tid)
    | _, _ => none
  | .cvWaitEnd tid =>
    match (s.threads tid).phase with
    | .cvWait m predicate =>
      if s.Free m then
        if predicate then some ((s.set tid (s.ctx tid) .idle).cvAcquire m tid)
        else some ((s.set tid ((s.ctx tid).cvWaitEnd m) .idle).acquire m tid)
      else none
    | _ => none
  | .joinWaitBegin tid waitingTid =>
    match (s.threads tid).phase with
    | .idle => some (s.set tid { s.ctx tid with info := (s.ctx tid).info.addWaitJoin waitingTid } .idle)
    | _ => none
  | .joinWaitEnd tid =>
    match (s.threads tid).phase with
    | .idle => some (s.set tid { s.ctx tid with info := (s.ctx tid).info.removeWaitJoin } .idle)
    | _ => none
  | .queueWaitBegin tid waitingTid =>
    match (s.threads tid).phase with
    | .idle => some (s.set tid { s.ctx tid with info := (s.ctx tid).info.addWaitQueue waitingTid } .idle)
    | _ => none
  | .queueWaitEnd tid =>
    match (s.threads tid).phase with
    | .idle => some (s.set tid { s.ctx tid with info := (s.ctx tid).info.removeWaitQueue } .idle)
    | _ => none

/-- A sequence of steps. -/
def run (s : Sys A) : List (Event A) → Option (Sys A)
  | [] => some s
  | e :: es => s.step e >>= fun s => run s es

/-- The states reachable from `init`. -/
inductive Reach : Sys A → Prop
  | init : Reach init
  | step {s s' : Sys A} (e : Event A) : Reach s → s.step e = some s' → Reach s'

end Sys

end AudioUtils
