import AudioUtils.Spec.ThreadInfo

/-!
# `thread_registry::deadlock_detection`

The detector works on the `copy_map()` of the registry: tid to `weak_ptr`, with
no lock held. It builds `mutex_to_tid`, from each live descriptor's tracked held
pairs to that descriptor's tid, then walks from the target tid: a thread waiting
on a mutex leads to the mutex's holder, one in a condition-variable, join or
queue wait leads to `other_wait_info_.tid_`. The walk appends each tid it
reaches, and stops at a thread with no wait, at a tid with no live descriptor,
or at a tid it has visited, which is a cycle.

The descriptors are read through atomics while their threads run, so each load
may see a new value. `deadlockDetectionWith` takes the map and the loads as
arguments: `lockAndLoad k tid` is what the `k`-th `weak_ptr::lock` and loads of
the walk read of thread `tid`'s descriptor, `none` when its `weak_ptr` has
expired. `deadlockDetection` is the walk over a snapshot that does not change.
The loop `for (pid_t tid2 = tid; true;)` gets `fuel` passes.
-/

namespace AudioUtils

/-- What the detector loads from a descriptor: `mutex_wait_` and the fields of
`other_wait_info_`. -/
structure WaitState where
  mutexWait : ℕ
  otherWait : OtherWaitInfo
  deriving DecidableEq, Repr

/-- The loads of a descriptor that does not change. -/
def ThreadMutexInfo.waitState {N : ℕ} (t : ThreadMutexInfo N) : WaitState :=
  ⟨t.mutexWait_, t.otherWaitInfo_⟩

/-- `deadlock_info_t`, with its initialisers. -/
structure DeadlockInfo where
  tid : ℤ
  hasCycle : Bool := false
  otherWaitReason : OtherWaitReason := .none
  chain : List (ℤ × String) := []
  deriving DecidableEq, Repr

/-- The tids of the wait chain with the target tid first, as `to_string` prints
them. -/
def DeadlockInfo.path (info : DeadlockInfo) : List ℤ := info.tid :: info.chain.map Prod.fst

/-- The registry map that `copy_map()` returns: each key once, with its
`weak_ptr`, `none` once the descriptor is gone. The list order is the map's
iteration order. -/
structure RegistryMap (N : ℕ) where
  entries : List (ℤ × Option (ThreadMutexInfo N))
  keys_nodup : (entries.map Prod.fst).Nodup

namespace RegistryMap

variable {N : ℕ}

/-- The keys of the map. -/
def keys (reg : RegistryMap N) : List ℤ := reg.entries.map Prod.fst

/-- `tid_to_info(registry_map, tid)`: `nullptr` for a missing key or an expired
`weak_ptr`. -/
def tidToInfo (reg : RegistryMap N) (tid : ℤ) : Option (ThreadMutexInfo N) :=
  (reg.entries.lookup tid).join

/-- The loads of `tid_to_info(registry_map, tid)` when its descriptor does not
change. -/
def waitOf (reg : RegistryMap N) (tid : ℤ) : Option WaitState :=
  (reg.tidToInfo tid).map ThreadMutexInfo.waitState

end RegistryMap

/-- The held pairs the detector reads from a stack: `bottom(i)` for
`i < min(stack.size(), capacity)`. -/
def heldPairs {N : ℕ} (t : ThreadMutexInfo N) : List (ℕ × ℕ) :=
  (List.range (min t.mutexesHeld_.size N)).map t.mutexesHeld_.bottom

/-- `mutex_to_tid[mutex_ptr] = {tid2, order}` for each non-null held pair of one
live descriptor. -/
def addHeldPairs (tid2 : ℤ) (map : ℕ → Option (ℤ × ℕ)) : List (ℕ × ℕ) → ℕ → Option (ℤ × ℕ)
  | [] => map
  | (mutexPtr, order) :: pairs =>
    addHeldPairs tid2 (if mutexPtr = 0 then map else Function.update map mutexPtr (some (tid2, order)))
      pairs

/-- The helper map `mutex_to_tid`, built over the registry map in its iteration
order; a later write to a handle wins. -/
def buildMutexToTid {N : ℕ} : List (ℤ × Option (ThreadMutexInfo N)) → (ℕ → Option (ℤ × ℕ)) →
    ℕ → Option (ℤ × ℕ)
  | [], map => map
  | (_, none) :: entries, map => buildMutexToTid entries map
  | (tid2, some info) :: entries, map => buildMutexToTid entries (addHeldPairs tid2 map (heldPairs info))

/-- `mutex_to_tid` of a registry map whose stacks do not change. -/
def RegistryMap.mutexToTid {N : ℕ} (reg : RegistryMap N) : ℕ → Option (ℤ × ℕ) :=
  buildMutexToTid reg.entries fun _ => none

/-- The edge one pass of the walk follows from a thread. -/
inductive Edge
  /-- `m != nullptr && mutex_to_tid.count(m)`: the holder of the awaited mutex,
  and the order it was pushed with. -/
  | mutex (tid : ℤ) (order : ℕ)
  /-- The condition-variable, join or queue wait on `tid`. -/
  | other (tid : ℤ) (order : ℕ) (reason : OtherWaitReason)
  deriving DecidableEq, Repr

/-- The tid an edge leads to. -/
def Edge.tid : Edge → ℤ
  | .mutex tid _ => tid
  | .other tid _ _ => tid

/-- The edge from a thread with wait state `w`, or `none` when it has no mutex or
other wait to follow. -/
def nextEdge (mutexToTid : ℕ → Option (ℤ × ℕ)) (w : WaitState) : Option Edge :=
  match (if w.mutexWait = 0 then none else mutexToTid w.mutexWait) with
  | some (tid2, order) => some (.mutex tid2 order)
  | none =>
    if w.otherWait.tid_ = kInvalidTid then none
    else some (.other w.otherWait.tid_ w.otherWait.order_ w.otherWait.reason_)

/-- `order < std::size(mutex_names) ? mutex_names[order] : "unknown"`. -/
def mutexName (names : List String) (order : ℕ) : String := names.getD order "unknown"

/-- The label appended with an edge's tid: the mutex name, prefixed `cv-` for a
condition variable, and `join` or `queue` for those waits. -/
def chainLabel (names : List String) : Edge → String
  | .mutex _ order => mutexName names order
  | .other _ order .cv => "cv-" ++ mutexName names order
  | .other _ _ .join => "join"
  | .other _ _ .queue => "queue"
  | .other _ order .none => mutexName names order

/-- Append an edge to the chain; an other wait also sets `other_wait_reason`. -/
def DeadlockInfo.record (names : List String) (info : DeadlockInfo) (e : Edge) : DeadlockInfo :=
  { info with
    otherWaitReason := match e with
      | .mutex _ _ => info.otherWaitReason
      | .other _ _ reason => reason
    chain := info.chain ++ [(e.tid, chainLabel names e)] }

/-- `tid_to_info` followed by the loads: `nullptr` for a tid that is not a key,
otherwise what the `k`-th lock and load read. -/
def loadInfo (keys : List ℤ) (lockAndLoad : ℕ → ℤ → Option WaitState) (k : ℕ) (tid : ℤ) :
    Option WaitState :=
  if tid ∈ keys then lockAndLoad k tid else none

section Traverse

variable (names : List String) (keys : List ℤ) (mutexToTid : ℕ → Option (ℤ × ℕ))
  (lockAndLoad : ℕ → ℤ → Option WaitState)

/-- The traversal loop from a thread with wait state `w`, for at most `fuel`
passes; `k` counts the loads so far. `none` when the passes run out. -/
def traverse : ℕ → ℕ → List ℤ → WaitState → DeadlockInfo → Option DeadlockInfo
  | 0, _, _, _, _ => none
  | fuel + 1, k, visited, w, info =>
    match nextEdge mutexToTid w with
    | none => some info
    | some e =>
      let info := info.record names e
      if e.tid ∈ visited then some { info with hasCycle := true }
      else
        match loadInfo keys lockAndLoad k e.tid with
        | none => some info
        | some w => traverse fuel (k + 1) (e.tid :: visited) w info

/-- `deadlock_detection(tid, mutex_names)` with `fuel` passes of its loop, over a
map with keys `keys` whose descriptors read `lockAndLoad`, and the `mutex_to_tid`
built from them. -/
def deadlockDetectionWith (fuel : ℕ) (tid : ℤ) : Option DeadlockInfo :=
  match loadInfo keys lockAndLoad 0 tid with
  | none => some { tid }
  | some w =>
    if w.mutexWait = 0 ∧ w.otherWait.tid_ = kInvalidTid then some { tid }
    else traverse names keys mutexToTid lockAndLoad fuel 1 [tid] w { tid }

end Traverse

/-- `deadlock_detection(tid, mutex_names)` on a registry map whose descriptors
do not change, with one pass of the loop per key. -/
def deadlockDetection {N : ℕ} (reg : RegistryMap N) (names : List String) (tid : ℤ) :
    Option DeadlockInfo :=
  deadlockDetectionWith names reg.keys reg.mutexToTid (fun _ => reg.waitOf) reg.entries.length tid

end AudioUtils
