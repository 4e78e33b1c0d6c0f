import Mathlib.Data.List.Basic

/-!
# `thread_registry` and the lifetime of `thread_mutex_info`

The registry maps a tid to a `weak_ptr` to a `thread_mutex_info`. A thread makes
its descriptor on its first mutex operation (`get_thread_mutex_info`) and offers
it to `add_to_registry`, which keeps an existing entry for the same tid. The
descriptor is owned by the thread's `thread_local` `shared_ptr` and by the
`shared_ptr`s that diagnostic readers (`to_string`, `deadlock_detection`) promote
from the registry. When the last owner lets go, `~thread_mutex_info` runs and
calls `remove_from_registry(tid_)`, which takes the registry lock and erases the
entry for that tid, whatever it points to. These are two steps: in between, the
descriptor is `dying`, with no owner and its entry still in the registry.

Descriptors are numbered in the order they are made, and `infos` lists their
`tid_`. A descriptor is alive while its thread still holds it or a reader does.
A reader's `copy_map` followed by `weak_ptr::lock` is one step.
-/

namespace AudioUtils

/-- The OS thread that has a given tid. -/
inductive OsThread
  /-- No live thread has the tid: never used, or exited. -/
  | absent
  /-- A live thread that has not yet used an `audio_utils::mutex`. -/
  | running
  /-- A live thread whose `thread_local` `tminfo` is descriptor `d`. -/
  | usesMutex (d : ℕ)
  deriving DecidableEq, Repr

/-- The registry, the descriptors and their owners. -/
structure Reg where
  /-- `registry_`: tid to descriptor. -/
  registry_ : ℤ → Option ℕ
  /-- The `tid_` of each descriptor made so far. -/
  infos : List ℤ
  threads : ℤ → OsThread
  /-- The descriptors the readers hold, one entry per promoted `shared_ptr`. -/
  readers : List ℕ
  /-- The descriptors whose last owner has let go and whose destructor has not
  yet run `remove_from_registry`. -/
  dying : List ℕ

/-- One step of the process. -/
inductive RegEvent
  /-- The OS starts a thread with tid `tid`, reusing it if an earlier thread had it. -/
  | spawn (tid : ℤ)
  /-- The first mutex operation of thread `tid`. -/
  | firstUse (tid : ℤ)
  /-- Thread `tid` exits, destroying its `thread_local` `shared_ptr`. -/
  | exit (tid : ℤ)
  /-- A reader copies the map and promotes the `weak_ptr` of `tid`. -/
  | promote (tid : ℤ)
  /-- A reader drops its `shared_ptr` to descriptor `d`. -/
  | release (d : ℕ)
  /-- `~thread_mutex_info` of the dying descriptor `d` runs `remove_from_registry`. -/
  | destroy (d : ℕ)
  deriving DecidableEq, Repr

namespace Reg

/-- Nothing has happened yet. -/
def init : Reg := ⟨fun _ => none, [], fun _ => .absent, [], []⟩

/-- The `tid_` of descriptor `d`. -/
def tidOf (r : Reg) (d : ℕ) : ℤ := r.infos.getD d 0

/-- Descriptor `d` still has an owner: its thread, or a reader. -/
def Alive (r : Reg) (d : ℕ) : Prop :=
  r.threads (r.tidOf d) = .usesMutex d ∨ d ∈ r.readers

instance (r : Reg) (d : ℕ) : Decidable (r.Alive d) := inferInstanceAs (Decidable (_ ∨ _))

/-- The OS state of thread `tid` becomes `x`. -/
def setThread (r : Reg) (tid : ℤ) (x : OsThread) : Reg :=
  { r with threads := Function.update r.threads tid x }

/-- `std::make_shared<thread_mutex_info_t>(tid)`: descriptor number `infos.length`. -/
def newInfo (r : Reg) (tid : ℤ) : Reg := { r with infos := r.infos ++ [tid] }

/-- A reader now holds a `shared_ptr` to `d`. -/
def addReader (r : Reg) (d : ℕ) : Reg := { r with readers := d :: r.readers }

/-- A reader's `shared_ptr` to `d` is gone (before the descriptor's possible
destruction). -/
def removeReader (r : Reg) (d : ℕ) : Reg := { r with readers := r.readers.erase d }

/-- `add_to_registry`: insert only if the tid is not already a key. -/
def addToRegistry (r : Reg) (tid : ℤ) (d : ℕ) : Reg :=
  if (r.registry_ tid).isSome then r else { r with registry_ := Function.update r.registry_ tid (some d) }

/-- `remove_from_registry(tid)`: erase the key. -/
def removeFromRegistry (r : Reg) (tid : ℤ) : Reg :=
  { r with registry_ := Function.update r.registry_ tid none }

/-- An owner of `d` has let go: if none is left, `d` is dying. -/
def drop (r : Reg) (d : ℕ) : Reg :=
  if r.Alive d then r else { r with dying := d :: r.dying }

/-- `~thread_mutex_info` of `d`: `if (tid_ != 0) remove_from_registry(tid_)`. -/
def destroy (r : Reg) (d : ℕ) : Reg :=
  let r' := { r with dying := r.dying.erase d }
  if r.tidOf d ≠ 0 then r'.removeFromRegistry (r.tidOf d) else r'

/-- One step, or `none` when the event cannot happen here. -/
def step (r : Reg) : RegEvent → Option Reg
  | .spawn tid => if r.threads tid = .absent then some (r.setThread tid .running) else none
  | .firstUse tid =>
    if r.threads tid = .running then
      some (((r.newInfo tid).setThread tid (.usesMutex r.infos.length)).addToRegistry tid
        r.infos.length)
    else none
  | .exit tid =>
    match r.threads tid with
    | .absent => none
    | .running => some (r.setThread tid .absent)
    | .usesMutex d => some ((r.setThread tid .absent).drop d)
  | .promote tid =>
    match r.registry_ tid with
    | some d => if r.Alive d then some (r.addReader d) else none
    | none => none
  | .release d =>
    if d ∈ r.readers then some ((r.removeReader d).drop d) else none
  | .destroy d => if d ∈ r.dying then some (r.destroy d) else none

/-- A sequence of steps. -/
def run (r : Reg) : List RegEvent → Option Reg
  | [] => some r
  | e :: es => r.step e >>= fun r => run r es

end Reg

end AudioUtils
