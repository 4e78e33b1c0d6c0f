import AudioUtils.Spec.AtomicStack

/-!
# `thread_mutex_info`

The per-thread descriptor of `audio_utils/mutex.h`: the thread's tid, the mutex
it is blocked on (`mutex_wait_`), the non-mutex wait it is in
(`other_wait_info_`: a condition variable, a join or a queue, on another tid)
and the `atomic_stack` of the mutexes it holds.

A mutex handle is the mutex's address, `0` being `nullptr`; an order is the
`uint32_t` value of its `MutexOrder`.
-/

namespace AudioUtils

/-- `kInvalidTid`. -/
def kInvalidTid : ℤ := -1

/-- `other_wait_reason_t`. -/
inductive OtherWaitReason
  | none
  | cv
  | join
  | queue
  deriving DecidableEq, Repr

/-- `reason_to_string`. -/
def OtherWaitReason.toString : OtherWaitReason → String
  | .none => "none"
  | .cv => "cv"
  | .join => "join"
  | .queue => "queue"

/-- `thread_mutex_info::other_wait_info`, with its initialisers: no tid, reason
`none`, and order `(Order)-1`. -/
structure OtherWaitInfo where
  tid_ : ℤ := kInvalidTid
  reason_ : OtherWaitReason := .none
  order_ : ℕ := 2 ^ 32 - 1
  deriving DecidableEq, Repr

/-- `thread_mutex_info<void*, MutexOrder, N>`. -/
structure ThreadMutexInfo (N : ℕ) where
  tid_ : ℤ
  mutexWait_ : ℕ := 0
  otherWaitInfo_ : OtherWaitInfo := {}
  mutexesHeld_ : AtomicStack ℕ ℕ N := .empty

namespace ThreadMutexInfo

variable {N : ℕ}

/-- `thread_mutex_info(pid_t tid)`. -/
def new (tid : ℤ) : ThreadMutexInfo N := { tid_ := tid }

/-- `reset_waiter(waiter)`; the default argument is `nullptr`. -/
def resetWaiter (t : ThreadMutexInfo N) (waiter : ℕ := 0) : ThreadMutexInfo N :=
  { t with mutexWait_ := waiter }

/-- The loop of `check_held` from offset `i`, for its remaining `k` rounds: stop
at the first pair of smaller order, report one of greater order or with the
same handle, and pass over pairs of equal order and another handle. -/
def checkHeldLoop (s : AtomicStack ℕ ℕ N) (mutex order : ℕ) (i : ℕ) : ℕ → ℕ × ℕ
  | 0 => AtomicStack.invalid
  | k + 1 =>
    let top := s.top i
    if top.2 < order then AtomicStack.invalid
    else if top.2 > order then top
    else if top.1 = mutex then top
    else checkHeldLoop s mutex order (i + 1) k

/-- `check_held(mutex, order)`: the held pair that conflicts with acquiring
`mutex` of order `order`, or `invalid()`. -/
def checkHeld (t : ThreadMutexInfo N) (mutex order : ℕ) : ℕ × ℕ :=
  checkHeldLoop t.mutexesHeld_ mutex order 0 t.mutexesHeld_.size

/-- `push_held`: the unverified push. -/
def pushHeld (t : ThreadMutexInfo N) (mutex order : ℕ) : ThreadMutexInfo N :=
  { t with mutexesHeld_ := t.mutexesHeld_.push mutex order }

/-- `remove_held`. -/
def removeHeld (t : ThreadMutexInfo N) (mutex : ℕ) : Bool × ThreadMutexInfo N :=
  ((t.mutexesHeld_.remove mutex).1, { t with mutexesHeld_ := (t.mutexesHeld_.remove mutex).2 })

/-- `push_held_for_cv`: the mutex is back on the stack, with no order check, and
the condition-variable wait is over. -/
def pushHeldForCv (t : ThreadMutexInfo N) (mutex order : ℕ) : ThreadMutexInfo N :=
  let t := t.pushHeld mutex order
  { t with otherWaitInfo_ := { t.otherWaitInfo_ with tid_ := kInvalidTid } }

/-- `remove_held_for_cv`: record the wait on `notifier_tid`, then `remove_held`. -/
def removeHeldForCv (t : ThreadMutexInfo N) (mutex order : ℕ) (notifierTid : ℤ) :
    Bool × ThreadMutexInfo N :=
  removeHeld { t with otherWaitInfo_ := { order_ := order, reason_ := .cv, tid_ := notifierTid } }
    mutex

/-- `add_wait_join`. -/
def addWaitJoin (t : ThreadMutexInfo N) (waitingTid : ℤ) : ThreadMutexInfo N :=
  { t with otherWaitInfo_ := { t.otherWaitInfo_ with reason_ := .join, tid_ := waitingTid } }

/-- `remove_wait_join`. -/
def removeWaitJoin (t : ThreadMutexInfo N) : ThreadMutexInfo N :=
  { t with otherWaitInfo_ := { t.otherWaitInfo_ with tid_ := kInvalidTid } }

/-- `add_wait_queue`. -/
def addWaitQueue (t : ThreadMutexInfo N) (waitingTid : ℤ) : ThreadMutexInfo N :=
  { t with otherWaitInfo_ := { t.otherWaitInfo_ with reason_ := .queue, tid_ := waitingTid } }

/-- `remove_wait_queue`. -/
def removeWaitQueue (t : ThreadMutexInfo N) : ThreadMutexInfo N :=
  { t with otherWaitInfo_ := { t.otherWaitInfo_ with tid_ := kInvalidTid } }

/-- `empty()`: not waiting for a mutex and holding none that is tracked. -/
def empty (t : ThreadMutexInfo N) : Bool := t.mutexWait_ = 0 && t.mutexesHeld_.size = 0

@[simp] theorem pushHeld_mutexesHeld (t : ThreadMutexInfo N) (mutex order : ℕ) :
    (t.pushHeld mutex order).mutexesHeld_ = t.mutexesHeld_.push mutex order := rfl

@[simp] theorem removeHeld_fst (t : ThreadMutexInfo N) (mutex : ℕ) :
    (t.removeHeld mutex).1 = (t.mutexesHeld_.remove mutex).1 := rfl

@[simp] theorem removeHeld_mutexesHeld (t : ThreadMutexInfo N) (mutex : ℕ) :
    (t.removeHeld mutex).2.mutexesHeld_ = (t.mutexesHeld_.remove mutex).2 := rfl

@[simp] theorem pushHeldForCv_mutexesHeld (t : ThreadMutexInfo N) (mutex order : ℕ) :
    (t.pushHeldForCv mutex order).mutexesHeld_ = t.mutexesHeld_.push mutex order := rfl

@[simp] theorem removeHeldForCv_fst (t : ThreadMutexInfo N) (mutex order : ℕ) (n : ℤ) :
    (t.removeHeldForCv mutex order n).1 = (t.mutexesHeld_.remove mutex).1 := rfl

@[simp] theorem removeHeldForCv_mutexesHeld (t : ThreadMutexInfo N) (mutex order : ℕ) (n : ℤ) :
    (t.removeHeldForCv mutex order n).2.mutexesHeld_ = (t.mutexesHeld_.remove mutex).2 := rfl

@[simp] theorem resetWaiter_mutexesHeld (t : ThreadMutexInfo N) (w : ℕ) :
    (t.resetWaiter w).mutexesHeld_ = t.mutexesHeld_ := rfl

@[simp] theorem addWaitJoin_mutexesHeld (t : ThreadMutexInfo N) (w : ℤ) :
    (t.addWaitJoin w).mutexesHeld_ = t.mutexesHeld_ := rfl

@[simp] theorem removeWaitJoin_mutexesHeld (t : ThreadMutexInfo N) :
    t.removeWaitJoin.mutexesHeld_ = t.mutexesHeld_ := rfl

@[simp] theorem addWaitQueue_mutexesHeld (t : ThreadMutexInfo N) (w : ℤ) :
    (t.addWaitQueue w).mutexesHeld_ = t.mutexesHeld_ := rfl

@[simp] theorem removeWaitQueue_mutexesHeld (t : ThreadMutexInfo N) :
    t.removeWaitQueue.mutexesHeld_ = t.mutexesHeld_ := rfl

end ThreadMutexInfo

end AudioUtils
