import AudioUtils.Proof.Counters
import Mathlib.Data.List.Nodup

/-!
# The descriptors track the process

In every reachable state of every interleaving of `Sys`, with tracking on, each
thread's `thread_mutex_info` says what the thread is doing (`Sys.Reach.tracked`):

* its `atomic_stack` tracks the OS mutexes it owns on `held`, as `(handle, order)`
  pairs in the order it took them (`ownedBy`): `true_top_` counts them, and the
  pairs it keeps are a sublist of them, all of them when no `push` went past the
  capacity. A mutex it owns while it evaluates the `stop_waiting` of a predicate
  wait is in `cvHeld` instead: the wait's constructor took it off the stack;
* its `mutex_wait_` is the handle of the mutex it is blocked on in `m_.lock()`
  or `pthread_mutex_timedlock`, and `nullptr` otherwise.

Both follow from `step_effect`: a step pushes what its thread acquires or
unparks, removes what it releases or parks, and keeps `mutex_wait_` in step with
its phase.
-/

namespace AudioUtils

variable {A : Attributes}

/-- The mutexes thread `tid` owns, as the `(handle, order)` pairs its held stack
pushes, in the order it took them. -/
def ownedBy (held : List (Mutex A × ℤ)) (tid : ℤ) : List (ℕ × ℕ) :=
  ((held.filter fun p => p.2 = tid).map fun p => (p.1.handle, p.1.order_)).reverse

/-- `eraseP` looks at the predicate on the list's elements only. -/
theorem eraseP_congr {α : Type} {p q : α → Bool} {l : List α} (h : ∀ x ∈ l, p x = q x) :
    l.eraseP p = l.eraseP q := by
  induction l with
  | nil => rfl
  | cons a l ih =>
    simp only [List.eraseP_cons, h a (List.mem_cons_self _ _),
      ih fun x hx => h x (List.mem_cons_of_mem _ hx)]

section OwnedBy

variable {held : List (Mutex A × ℤ)} {m : Mutex A} {tid t : ℤ}

theorem mem_ownedBy {h o : ℕ} :
    (h, o) ∈ ownedBy held t ↔ ∃ mx, (mx, t) ∈ held ∧ mx.handle = h ∧ mx.order_ = o := by
  simp only [ownedBy, List.mem_reverse, List.mem_map, List.mem_filter, decide_eq_true_eq,
    Prod.mk.injEq, Prod.exists]
  constructor
  · rintro ⟨mx, t', ⟨hm, rfl⟩, hh, ho⟩
    exact ⟨mx, hm, hh, ho⟩
  · rintro ⟨mx, hm, hh, ho⟩
    exact ⟨mx, t, ⟨hm, rfl⟩, hh, ho⟩

theorem handle_mem_ownedBy (hm : (m, tid) ∈ held) : m.handle ∈ (ownedBy held tid).map Prod.fst :=
  List.mem_map.2 ⟨_, mem_ownedBy.2 ⟨m, hm, rfl, rfl⟩, rfl⟩

theorem ownedBy_cons_self : ownedBy ((m, tid) :: held) tid = ownedBy held tid ++ [(m.handle, m.order_)] := by
  simp [ownedBy]

theorem ownedBy_cons_ne (ht : t ≠ tid) : ownedBy ((m, tid) :: held) t = ownedBy held t := by
  simp [ownedBy, Ne.symm ht]

theorem ownedBy_erase_ne (ht : t ≠ tid) : ownedBy (held.erase (m, tid)) t = ownedBy held t := by
  rw [ownedBy, ← List.erase_filter, List.erase_of_not_mem (by simp [Ne.symm ht]), ownedBy]

/-- With no handle owned twice, releasing `m` takes the topmost pair of `m`'s
handle off the owner's list: the one `remove` looks for. -/
theorem ownedBy_erase_self (hnd : (held.map fun p => p.1.handle).Nodup) (hm : (m, tid) ∈ held) :
    ownedBy (held.erase (m, tid)) tid = eraseTop m.handle (ownedBy held tid) := by
  rw [ownedBy, ownedBy, eraseTop, List.reverse_reverse, ← List.erase_filter, List.eraseP_map,
    List.erase_eq_eraseP]
  congr 2
  refine eraseP_congr fun x hx => ?_
  have hx := (List.mem_filter.1 hx).1
  by_cases he : x = (m, tid)
  · simp [he]
  · have hh : x.1.handle ≠ m.handle := fun hh => he (List.inj_on_of_nodup_map hnd hx hm hh)
    simp [he, Ne.symm he, hh]

end OwnedBy

/-- An effect of thread `tid` leaves what the other threads own alone. -/
theorem Effect.ownedBy_held_ne (eff : Effect A) {held : List (Mutex A × ℤ)} {tid t : ℤ}
    (ht : t ≠ tid) : ownedBy (eff.held tid held) t = ownedBy held t := by
  cases eff with
  | acquire m | unpark m => exact ownedBy_cons_ne ht
  | release m | park m => exact ownedBy_erase_ne ht
  | wait m | quiet | cvRelease m | cvAcquire m => rfl

/-- **An effect keeps its thread's held stack tracking the mutexes it owns.** -/
theorem Effect.tracks (hN : 0 < A.mutexStackDepth_) {eff : Effect A} {held cvHeld : List (Mutex A × ℤ)}
    {tid : ℤ} (hv : eff.Valid tid held cvHeld) (hnd : (held.map fun p => p.1.handle).Nodup)
    {st : AtomicStack ℕ ℕ A.mutexStackDepth_} (h : Tracks (ownedBy held tid) st) :
    Tracks (ownedBy (eff.held tid held) tid) (eff.onStack st) := by
  cases eff with
  | acquire m | unpark m => rw [Effect.held, ownedBy_cons_self]; exact h.push hN _ _
  | release m | park m => rw [Effect.held, ownedBy_erase_self hnd hv]; exact h.remove (handle_mem_ownedBy hv)
  | wait m | quiet | cvRelease m | cvAcquire m => exact h

/-- **What the descriptors say about the process**: each held stack tracks the
mutexes its thread owns on `held`, and each `mutex_wait_` the mutex its thread
is blocked on. -/
structure Sys.Tracked (s : Sys A) : Prop where
  tracks : ∀ t, Tracks (ownedBy s.held t) (s.threads t).info.mutexesHeld_
  waitOk : ∀ t, (s.threads t).WaitOk

namespace Sys

variable {s s' : Sys A}

theorem Tracked.init : (init : Sys A).Tracked :=
  ⟨fun _ => tracks_empty, fun _ => rfl⟩

theorem Tracked.step (hA : A.mutexTrackingEnabled_ = true) (hN : 0 < A.mutexStackDepth_)
    (h : s.Tracked) (hb : Balanced s.stats s.held s.cvHeld) {e : Event A} (he : s.step e = some s') :
    s'.Tracked := by
  obtain ⟨eff, ha⟩ := step_effect hA he
  refine ⟨fun t => ?_, fun t => ?_⟩ <;> by_cases ht : t = e.tid
  · subst ht
    rw [ha.stack, ha.held]
    exact eff.tracks hN ha.valid hb.nodup_held (h.tracks _)
  · rw [ha.frame t ht, ha.held, eff.ownedBy_held_ne ht]; exact h.tracks t
  · subst ht; exact ha.wait (h.waitOk _)
  · rw [Thread.WaitOk, ha.frame t ht]; exact h.waitOk t

theorem Tracked.of_reach (hA : A.mutexTrackingEnabled_ = true) (hN : 0 < A.mutexStackDepth_)
    (h : s.Reach) : s.Tracked := by
  induction h with
  | init => exact .init
  | step e hr he ih => exact ih.step hA hN (hr.balanced hA) he

end Sys

/-- A second mutex of order 3 (`EffectBase_PolicyMutex`, of another effect) at
address 4. -/
def mutexD : Mutex audioMutexAttributes := ⟨4, 3, by decide, by decide⟩

/-- Threads 1 and 2 each lock one of two mutexes of the same order, then each
blocks on the other's: the order check lets both through. -/
def crossLockRun : List (Event audioMutexAttributes) :=
  [.lock 1 mutexA true, .lock 2 mutexD true, .lock 1 mutexD false, .lock 2 mutexA false]

/-- The state after `crossLockRun`. -/
def crossLocked : Sys audioMutexAttributes := (Sys.init.run crossLockRun).getD Sys.init

theorem crossLocked_run : Sys.init.run crossLockRun = some crossLocked := rfl

end AudioUtils
