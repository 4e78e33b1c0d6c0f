import AudioUtils.Spec.System
import AudioUtils.Proof.HeldStack

/-!
# The lock, unlock and wait counters

Over every interleaving of the threads of `Sys`, with tracking on:

* `step_effect`: a step acquires a free mutex (counting a lock and pushing it on
  its thread's held stack), releases an owned one (counting an unlock and
  removing it), starts a wait (counting a wait), or leaves the counters, the
  owned mutexes and the stacks alone; `mutex_wait_` follows the phase; and the
  step touches only its own thread.
* `locks_track_holds`: no OS mutex has two owners, and for every order
  `locks - unlocks` is the number of owned mutexes of that order, so
  `unlocks ≤ locks`.
* `timedOut_waits_exceed_locks`: a timed `try_lock` that times out still counts
  a wait, so two timeouts on a mutex locked once give `waits = 2 > locks = 1`,
  and `to_string` prints an `uncontested` count of `2^64 - 1`.
-/

namespace AudioUtils

variable {A : Attributes}

/-! ## What a step does to the counters -/

/-- The part of a step the counters and the held stacks see. -/
inductive Effect (A : Attributes)
  | acquire (m : Mutex A)
  | release (m : Mutex A)
  | wait (m : Mutex A)
  | quiet
  /-- A predicate wait's constructor: `m` leaves the held stack and is counted
  as unlocked, but stays owned while `stop_waiting` runs. -/
  | park (m : Mutex A)
  /-- A predicate wait's destructor: `m`, owned all along, is back on the held
  stack and counted as locked. -/
  | unpark (m : Mutex A)
  /-- The predicate loop's `cv_.wait` releases `m`. -/
  | cvRelease (m : Mutex A)
  /-- The predicate loop's `cv_.wait` returns with `m` reacquired. -/
  | cvAcquire (m : Mutex A)

namespace Effect

/-- The statistics after the effect. -/
def stats : Effect A → (ℕ → MutexStat) → ℕ → MutexStat
  | .acquire m, st | .unpark m, st =>
    Function.update st m.order_ { st m.order_ with locks := (st m.order_).locks + 1 }
  | .release m, st | .park m, st =>
    Function.update st m.order_ { st m.order_ with unlocks := (st m.order_).unlocks + 1 }
  | .wait m, st => Function.update st m.order_ { st m.order_ with waits := (st m.order_).waits + 1 }
  | .quiet, st | .cvRelease _, st | .cvAcquire _, st => st

/-- The mutexes owned on the held stacks after the effect of thread `tid`. -/
def held : Effect A → ℤ → List (Mutex A × ℤ) → List (Mutex A × ℤ)
  | .acquire m, tid, h | .unpark m, tid, h => (m, tid) :: h
  | .release m, tid, h | .park m, tid, h => h.erase (m, tid)
  | _, _, h => h

/-- The mutexes owned inside predicate evaluations after the effect of thread `tid`. -/
def cvHeld : Effect A → ℤ → List (Mutex A × ℤ) → List (Mutex A × ℤ)
  | .park m, tid, c | .cvAcquire m, tid, c => (m, tid) :: c
  | .unpark m, tid, c | .cvRelease m, tid, c => c.erase (m, tid)
  | _, _, c => c

/-- The guard of thread `tid`'s effect: a mutex is acquired only when free, and
given up, on the held stack or inside a predicate evaluation, only by its owner
there. -/
def Valid : Effect A → ℤ → List (Mutex A × ℤ) → List (Mutex A × ℤ) → Prop
  | .acquire m, _, h, c | .cvAcquire m, _, h, c => ∀ p ∈ h ++ c, p.1.handle ≠ m.handle
  | .release m, tid, h, _ | .park m, tid, h, _ => (m, tid) ∈ h
  | .unpark m, tid, _, c | .cvRelease m, tid, _, c => (m, tid) ∈ c
  | _, _, _, _ => True

/-- The calls the effect makes on its thread's held stack: it pushes the mutex it
acquires or unparks and removes the one it releases or parks. -/
def onStack : Effect A → AtomicStack ℕ ℕ A.mutexStackDepth_ → AtomicStack ℕ ℕ A.mutexStackDepth_
  | .acquire m, st | .unpark m, st => st.push m.handle m.order_
  | .release m, st | .park m, st => (st.remove m.handle).2
  | _, st => st

end Effect

/-- The thread an event belongs to. -/
def Event.tid : Event A → ℤ
  | .lock tid .. | .lockAcquire tid | .tryLock tid .. | .timedLockReturn tid _ | .unlock tid _
  | .cvWaitBegin tid .. | .cvPredicate tid _ | .cvWaitEnd tid | .joinWaitBegin tid _ | .joinWaitEnd tid
  | .queueWaitBegin tid _ | .queueWaitEnd tid => tid

/-- The handle of the mutex a thread in this phase is blocked on in `m_.lock()`
or `pthread_mutex_timedlock`, `0` (`nullptr`) otherwise. -/
def Phase.waitHandle : Phase A → ℕ
  | .lockWait m | .timedWait m => m.handle
  | .idle | .cvWait _ _ => 0

/-- The thread's `mutex_wait_` is the handle of the mutex it is blocked on. -/
def Thread.WaitOk (th : Thread A) : Prop := th.info.mutexWait_ = th.phase.waitHandle

/-- The owned mutexes after thread `tid`'s effect. -/
def Sys.apply (s : Sys A) (eff : Effect A) (tid : ℤ) : Sys A :=
  { s with held := eff.held tid s.held, cvHeld := eff.cvHeld tid s.cvHeld }

/-- `s'` is `s` after `eff`, with only thread `tid` changed: the owned mutexes
and the counters by the effect, each held stack by the effect's calls, and
`mutex_wait_` kept in step with the phase. -/
structure Sys.After (s : Sys A) (tid : ℤ) (eff : Effect A) (s' : Sys A) : Prop where
  valid : eff.Valid tid s.held s.cvHeld
  stats : s'.stats = eff.stats s.stats
  held : s'.held = eff.held tid s.held
  cvHeld : s'.cvHeld = eff.cvHeld tid s.cvHeld
  frame : ∀ t ≠ tid, s'.threads t = s.threads t
  stack : (s'.threads tid).info.mutexesHeld_ = eff.onStack (s.threads tid).info.mutexesHeld_
  wait : (s.threads tid).WaitOk → (s'.threads tid).WaitOk

namespace Sys

variable {s : Sys A} {tid : ℤ} {m : Mutex A} {c : Ctx A} {p : Phase A}

@[simp] theorem set_threads_self : (s.set tid c p).threads tid = ⟨c.info, p⟩ :=
  Function.update_same _ _ _

theorem set_threads_ne {t : ℤ} (ht : t ≠ tid) : (s.set tid c p).threads t = s.threads t :=
  Function.update_noteq ht _ _

/-- The predicate wait `cvTop` names owns its mutex inside its evaluation. -/
theorem cvTop_mem (h : s.cvTop tid = some m) : (m, tid) ∈ s.cvHeld := by
  obtain ⟨p, hp, rfl⟩ := Option.map_eq_some'.1 h
  obtain rfl : p.2 = tid := by simpa using List.find?_some hp
  exact List.mem_of_find?_eq_some hp

@[simp] theorem apply_threads {eff : Effect A} : (s.apply eff tid).threads = s.threads := rfl

theorem After.refl (s : Sys A) (tid : ℤ) : s.After tid .quiet s :=
  ⟨trivial, rfl, rfl, rfl, fun _ _ => rfl, rfl, id⟩

/-- **A step that installs thread `tid`'s context and phase**, and moves the
owned mutexes as `eff` says, has the effect `eff` when the context counts and
stacks as `eff` does. -/
theorem after_set (eff : Effect A) (hv : eff.Valid tid s.held s.cvHeld)
    (hc : c.stats = eff.stats s.stats)
    (hs : c.info.mutexesHeld_ = eff.onStack (s.threads tid).info.mutexesHeld_)
    (hw : (s.threads tid).WaitOk → c.info.mutexWait_ = p.waitHandle) :
    s.After tid eff ((s.set tid c p).apply eff tid) :=
  ⟨hv, hc, rfl, rfl, fun _ ht => set_threads_ne ht, by rw [apply_threads, set_threads_self]; exact hs,
    fun h => by rw [Thread.WaitOk, apply_threads, set_threads_self]; exact hw h⟩

theorem after_set_quiet (hc : c.stats = s.stats)
    (hs : c.info.mutexesHeld_ = (s.threads tid).info.mutexesHeld_)
    (hw : (s.threads tid).WaitOk → c.info.mutexWait_ = p.waitHandle) :
    s.After tid .quiet (s.set tid c p) :=
  after_set .quiet trivial hc hs hw

theorem after_lockScopedStat (hA : A.mutexTrackingEnabled_ = true) (hp : p.waitHandle = m.handle) :
    s.After tid (.wait m) (s.set tid ((s.ctx tid).lockScopedStat m) p) :=
  after_set (.wait m) trivial (by simp only [Ctx.lockScopedStat, hA, if_true]; rfl) Ctx.lockScopedStat_stack
    fun _ => by rw [hp]; simp [Ctx.lockScopedStat, hA]; rfl

end Sys

namespace Ctx

variable {c c' : Ctx A} {m : Mutex A}

theorem postLock_stats (hA : A.mutexTrackingEnabled_ = true) :
    (c.postLock m).stats =
      Function.update c.stats m.order_ { c.stats m.order_ with locks := (c.stats m.order_).locks + 1 } := by
  simp only [postLock, hA, if_true]; rfl

theorem cvWaitEnd_stats (hA : A.mutexTrackingEnabled_ = true) :
    (c.cvWaitEnd m).stats =
      Function.update c.stats m.order_ { c.stats m.order_ with locks := (c.stats m.order_).locks + 1 } := by
  simp only [cvWaitEnd, hA, if_true]; rfl

@[simp] theorem lockScopedStatEnd_stats : c.lockScopedStatEnd.stats = c.stats := by
  unfold lockScopedStatEnd; split <;> rfl

theorem preUnlock_stats (hA : A.mutexTrackingEnabled_ = true) (h : c.preUnlock m = .ok c') :
    c'.stats = Function.update c.stats m.order_
      { c.stats m.order_ with unlocks := (c.stats m.order_).unlocks + 1 } := by
  simp only [preUnlock, hA, if_true] at h
  split at h
  · cases h
  · cases h; rfl

theorem cvWaitBegin_stats (hA : A.mutexTrackingEnabled_ = true) {n : ℤ}
    (h : c.cvWaitBegin m n = .ok c') :
    c'.stats = Function.update c.stats m.order_
      { c.stats m.order_ with unlocks := (c.stats m.order_).unlocks + 1 } := by
  simp only [cvWaitBegin, hA, if_true] at h
  split at h
  · cases h
  · cases h; rfl

/-! `mutex_wait_` is set by `lock_scoped_stat_enabled` and reset by its
destructor; the other hooks leave it alone. -/

@[simp] theorem postLock_mutexWait : (c.postLock m).info.mutexWait_ = c.info.mutexWait_ := by
  unfold postLock; split <;> rfl

@[simp] theorem cvWaitEnd_mutexWait : (c.cvWaitEnd m).info.mutexWait_ = c.info.mutexWait_ := by
  unfold cvWaitEnd; split <;> rfl

theorem lockScopedStatEnd_mutexWait (hA : A.mutexTrackingEnabled_ = true) :
    c.lockScopedStatEnd.info.mutexWait_ = 0 := by
  simp only [lockScopedStatEnd, hA, if_true]; rfl

theorem preUnlock_mutexWait (h : c.preUnlock m = .ok c') : c'.info.mutexWait_ = c.info.mutexWait_ := by
  unfold preUnlock at h
  split at h
  · dsimp only at h
    split at h
    · cases h
    · cases h; rfl
  · cases h; rfl

theorem cvWaitBegin_mutexWait {n : ℤ} (h : c.cvWaitBegin m n = .ok c') :
    c'.info.mutexWait_ = c.info.mutexWait_ := by
  unfold cvWaitBegin at h
  split at h
  · dsimp only at h
    split at h
    · cases h
    · cases h; rfl
  · cases h; rfl

end Ctx

namespace Sys

variable {s s' : Sys A}

/-- **What a step can do**: one effect on the counters, the owned mutexes and
the held stacks, under its guard; `mutex_wait_` follows the phase; and nothing
else of the other threads changes. -/
theorem step_effect (hA : A.mutexTrackingEnabled_ = true) {e : Event A} (h : s.step e = some s') :
    ∃ eff : Effect A, s.After e.tid eff s' := by
  cases e with
  | lock tid m u =>
    simp only [step] at h
    split at h
    · rename_i hph _
      split at h
      · split at h
        · cases h
          exact ⟨_, after_set (.acquire m) ‹_› (Ctx.postLock_stats hA) (Ctx.postLock_stack hA)
            fun hw => by rw [Ctx.postLock_mutexWait]; exact hw.trans (congrArg Phase.waitHandle hph)⟩
        · cases h
      · cases h; exact ⟨_, after_lockScopedStat hA rfl⟩
    · cases h
  | lockAcquire tid =>
    simp only [step] at h
    split at h
    · split at h
      · cases h
        exact ⟨_, after_set (.acquire _) ‹_›
          (by rw [Ctx.postLock_stats hA, Ctx.lockScopedStatEnd_stats]; rfl)
          (by rw [Ctx.postLock_stack hA, Ctx.lockScopedStatEnd_stack]; rfl)
          fun _ => by rw [Ctx.postLock_mutexWait, Ctx.lockScopedStatEnd_mutexWait hA]; rfl⟩
      · cases h
    · cases h
  | tryLock tid m t a =>
    simp only [step] at h
    split at h
    · rename_i hph _
      split at h
      · split at h
        · split at h
          · cases h
            exact ⟨_, after_set (.acquire m) ‹_› (Ctx.postLock_stats hA) (Ctx.postLock_stack hA)
              fun hw => by rw [Ctx.postLock_mutexWait]; exact hw.trans (congrArg Phase.waitHandle hph)⟩
          · cases h
        · cases h; exact ⟨_, After.refl _ _⟩
      · cases h; exact ⟨_, after_lockScopedStat hA rfl⟩
    · cases h
  | timedLockReturn tid a =>
    simp only [step] at h
    split at h
    · split at h
      · split at h
        · cases h
          exact ⟨_, after_set (.acquire _) ‹_›
            (by rw [Ctx.postLock_stats hA, Ctx.lockScopedStatEnd_stats]; rfl)
            (by rw [Ctx.postLock_stack hA, Ctx.lockScopedStatEnd_stack]; rfl)
            fun _ => by rw [Ctx.postLock_mutexWait, Ctx.lockScopedStatEnd_mutexWait hA]; rfl⟩
        · cases h
      · cases h
        exact ⟨_, after_set_quiet Ctx.lockScopedStatEnd_stats Ctx.lockScopedStatEnd_stack
          fun _ => Ctx.lockScopedStatEnd_mutexWait hA⟩
    · cases h
  | unlock tid m =>
    simp only [step] at h
    split at h
    · rename_i hph
      split at h
      · split at h
        · rename_i hu
          cases h
          exact ⟨_, after_set (.release m) ‹_› (Ctx.preUnlock_stats hA hu) (Ctx.preUnlock_stack hA hu)
            fun hw => by rw [Ctx.preUnlock_mutexWait hu]; exact hw.trans (congrArg Phase.waitHandle hph)⟩
        · cases h
      · cases h
    · cases h
  | cvWaitBegin tid m n pred =>
    simp only [step] at h
    split at h
    · rename_i hph
      split at h
      · split at h
        · rename_i hc
          have hw : (s.threads tid).WaitOk → _ := fun hw =>
            (Ctx.cvWaitBegin_mutexWait hc).trans (hw.trans (congrArg Phase.waitHandle hph))
          split at h <;> cases h
          · exact ⟨_, after_set (.park m) ‹_› (Ctx.cvWaitBegin_stats hA hc) (Ctx.cvWaitBegin_stack hA hc) hw⟩
          · exact ⟨_, after_set (.release m) ‹_› (Ctx.cvWaitBegin_stats hA hc) (Ctx.cvWaitBegin_stack hA hc) hw⟩
        · cases h
      · cases h
    · cases h
  | cvPredicate tid r =>
    simp only [step] at h
    split at h
    · rename_i m hph hm
      have hw : (s.threads tid).WaitOk → (s.threads tid).info.mutexWait_ = 0 :=
        fun hw => hw.trans (congrArg Phase.waitHandle hph)
      split at h <;> cases h
      · exact ⟨_, after_set (.unpark m) (cvTop_mem hm) (Ctx.cvWaitEnd_stats hA) (Ctx.cvWaitEnd_stack hA)
          fun h => Ctx.cvWaitEnd_mutexWait.trans (hw h)⟩
      · exact ⟨_, after_set (.cvRelease m) (cvTop_mem hm) rfl rfl hw⟩
    · cases h
  | cvWaitEnd tid =>
    simp only [step] at h
    split at h
    · rename_i m pred hph
      have hw : (s.threads tid).WaitOk → (s.threads tid).info.mutexWait_ = 0 :=
        fun hw => hw.trans (congrArg Phase.waitHandle hph)
      split at h
      · split at h <;> cases h
        · exact ⟨_, after_set (.cvAcquire m) ‹_› rfl rfl hw⟩
        · exact ⟨_, after_set (.acquire m) ‹_› (Ctx.cvWaitEnd_stats hA) (Ctx.cvWaitEnd_stack hA)
            fun h => Ctx.cvWaitEnd_mutexWait.trans (hw h)⟩
      · cases h
    · cases h
  | joinWaitBegin tid _ | joinWaitEnd tid | queueWaitBegin tid _ | queueWaitEnd tid =>
    simp only [step] at h
    split at h
    · rename_i hph
      cases h; exact ⟨_, after_set_quiet rfl rfl fun hw => hw.trans (congrArg Phase.waitHandle hph)⟩
    · cases h

end Sys

/-! ## Locks minus unlocks -/

/-- **The counting invariant**: no OS mutex has two owners, on a held stack or
inside a predicate evaluation, and for every order the locks counted are the
unlocks counted plus the mutexes of that order owned on the held stacks. -/
structure Balanced (stats : ℕ → MutexStat) (held cvHeld : List (Mutex A × ℤ)) : Prop where
  nodup : ((held ++ cvHeld).map fun p => p.1.handle).Nodup
  count : ∀ o, (stats o).locks = (stats o).unlocks + held.countP fun p => p.1.order_ = o

theorem Balanced.nodup_held {st : ℕ → MutexStat} {l c : List (Mutex A × ℤ)} (hb : Balanced st l c) :
    (l.map fun p => p.1.handle).Nodup :=
  hb.nodup.sublist ((List.sublist_append_left l c).map _)

section Effect

variable {st : ℕ → MutexStat} {l c : List (Mutex A × ℤ)} {tid : ℤ}

/-- `List.perm_cons_erase` for the `BEq` instance the model's `erase` uses. -/
theorem perm_cons_erase_owned {x : Mutex A × ℤ} (h : x ∈ l) : l.Perm (x :: l.erase x) := by
  have hbeq : (instBEqOfDecidableEq : BEq (Mutex A × ℤ)) = instBEqProd :=
    @lawful_beq_subsingleton _ _ _ instLawfulBEq Prod.instLawfulBEq
  have := List.perm_cons_erase h
  rwa [hbeq] at this

theorem count_acquire (hb : ∀ o, (st o).locks = (st o).unlocks + l.countP fun p => p.1.order_ = o)
    (m : Mutex A) (o : ℕ) :
    ((Effect.acquire m).stats st o).locks =
      ((Effect.acquire m).stats st o).unlocks + ((m, tid) :: l).countP fun p => p.1.order_ = o := by
  by_cases ho : m.order_ = o
  · subst ho; simp [Effect.stats, hb m.order_]; omega
  · simp [Effect.stats, Function.update_noteq (Ne.symm ho), ho, hb o]

theorem count_release (hb : ∀ o, (st o).locks = (st o).unlocks + l.countP fun p => p.1.order_ = o)
    {m : Mutex A} (hm : (m, tid) ∈ l) (o : ℕ) :
    ((Effect.release m).stats st o).locks =
      ((Effect.release m).stats st o).unlocks + (l.erase (m, tid)).countP fun p => p.1.order_ = o := by
  have hperm := (perm_cons_erase_owned hm).countP_eq fun p : Mutex A × ℤ => p.1.order_ = o
  rw [List.countP_cons] at hperm
  have hcount := hb o
  by_cases ho : m.order_ = o
  · subst ho
    simp only [decide_True, if_true] at hperm
    simp [Effect.stats]; omega
  · simp only [ho, decide_False, Bool.false_eq_true, if_false, Nat.add_zero] at hperm
    simp [Effect.stats, Function.update_noteq (Ne.symm ho)]; omega

/-- **Every effect keeps the counting invariant** under its guard. -/
theorem Effect.balanced (eff : Effect A) (hv : eff.Valid tid l c) (hb : Balanced st l c) :
    Balanced (eff.stats st) (eff.held tid l) (eff.cvHeld tid c) := by
  have hfree : ∀ m : Mutex A, (∀ p ∈ l ++ c, p.1.handle ≠ m.handle) →
      (((m, tid) :: (l ++ c)).map fun p => p.1.handle).Nodup := fun m hf =>
    List.nodup_cons.2 ⟨fun hm => by obtain ⟨p, hp, he⟩ := List.mem_map.1 hm; exact hf p hp he, hb.nodup⟩
  have hperm : ∀ {l' : List (Mutex A × ℤ)}, l'.Perm (l ++ c) → (l'.map fun p => p.1.handle).Nodup :=
    fun h => (h.map _).nodup_iff.2 hb.nodup
  cases eff with
  | acquire m => exact ⟨hfree m hv, count_acquire hb.count m⟩
  | unpark m =>
    exact ⟨hperm (List.perm_middle.symm.trans ((perm_cons_erase_owned hv).symm.append_left l)),
      count_acquire hb.count m⟩
  | release m =>
    exact ⟨hb.nodup.sublist (((List.erase_sublist _ _).append_right c).map _), count_release hb.count hv⟩
  | park m =>
    exact ⟨hperm (List.perm_middle.trans ((perm_cons_erase_owned hv).symm.append_right c)),
      count_release hb.count hv⟩
  | cvRelease m =>
    exact ⟨hb.nodup.sublist (((List.erase_sublist _ _).append_left l).map _), hb.count⟩
  | cvAcquire m => exact ⟨(List.perm_middle.map _).nodup_iff.2 (hfree m hv), hb.count⟩
  | wait m =>
    refine ⟨hb.nodup, fun o => ?_⟩
    by_cases ho : m.order_ = o
    · subst ho; simpa [Effect.stats, Effect.held] using hb.count m.order_
    · simpa [Effect.stats, Effect.held, Function.update_noteq (Ne.symm ho)] using hb.count o
  | quiet => exact hb

end Effect

namespace Sys

variable {s s' : Sys A}

/-- Reachability is closed under runs. -/
theorem Reach.run : ∀ (es : List (Event A)) {s s' : Sys A}, s.Reach → s.run es = some s' → s'.Reach
  | [], _, _, h, hrun => by cases hrun; exact h
  | e :: es, s, _, h, hrun => by
    cases he : s.step e with
    | none => simp [Sys.run, he] at hrun
    | some s₁ =>
      simp only [Sys.run, he, Option.some_bind] at hrun
      exact Reach.run es (h.step e he) hrun

/-- A run changes only the threads it names. -/
theorem run_frame (hA : A.mutexTrackingEnabled_ = true) :
    ∀ (es : List (Event A)) {s s' : Sys A}, s.run es = some s' →
      ∀ t ∉ es.map Event.tid, s'.threads t = s.threads t
  | [], _, _, hrun, _, _ => by cases hrun; rfl
  | e :: es, s, _, hrun, t, ht => by
    cases he : s.step e with
    | none => simp [Sys.run, he] at hrun
    | some s₁ =>
      simp only [Sys.run, he, Option.some_bind] at hrun
      simp only [List.map, List.mem_cons, not_or] at ht
      obtain ⟨ht₁, ht₂⟩ := ht
      obtain ⟨_, ha⟩ := step_effect hA he
      rw [run_frame hA es hrun t ht₂, ha.frame t ht₁]

theorem Reach.balanced (hA : A.mutexTrackingEnabled_ = true) (h : s.Reach) :
    Balanced s.stats s.held s.cvHeld := by
  induction h with
  | init => exact ⟨List.nodup_nil, fun _ => rfl⟩
  | step e _ he ih =>
    obtain ⟨eff, ha⟩ := step_effect hA he
    rw [ha.stats, ha.held, ha.cvHeld]
    exact eff.balanced ha.valid ih

end Sys

/-- **Lock and unlock counters track holds.** In every reachable state of any
interleaving, no OS mutex has two owners, and for every order `o`,
`locks - unlocks` is the number of mutexes of order `o` owned by some thread (a
thread in a condition-variable wait does not own its mutex; in a wait with a
predicate, not even while it evaluates `stop_waiting` owning it); so
`unlocks ≤ locks`. -/
theorem locks_track_holds (hA : A.mutexTrackingEnabled_ = true) {s : Sys A} (h : s.Reach) (o : ℕ) :
    (s.held.map fun p => p.1.handle).Nodup ∧
      (s.stats o).locks - (s.stats o).unlocks = s.held.countP (fun p => p.1.order_ = o) ∧
      (s.stats o).unlocks ≤ (s.stats o).locks := by
  have hb := h.balanced hA
  have := hb.count o
  exact ⟨hb.nodup_held, by omega, by omega⟩

/-- Thread 1 locks `A` and `B` and waits on a condition variable through `A`;
thread 2 then takes `A` after waiting for it. -/
def handoffRun : List (Event audioMutexAttributes) :=
  [.lock 1 mutexA true, .lock 1 mutexB true, .cvWaitBegin 1 mutexA 2 false, .lock 2 mutexA false,
    .lockAcquire 2]

theorem locks_track_holds_handoff :
    ∃ s : Sys audioMutexAttributes, Sys.init.run handoffRun = some s ∧
      (s.held.map fun p => p.1.handle).Nodup ∧
      (s.stats 3).locks - (s.stats 3).unlocks = s.held.countP (fun p => p.1.order_ = 3) ∧
      (s.stats 3).unlocks ≤ (s.stats 3).locks := by
  obtain ⟨s, hs⟩ : ∃ s, Sys.init.run handoffRun = some s := ⟨_, rfl⟩
  exact ⟨s, hs, locks_track_holds rfl (Sys.Reach.init.run _ hs) 3⟩

/-! ## Waits against locks -/

/-- Thread 1 locks `A`; thread 2 twice tries `A` with a 1 ns timeout and times out. -/
def timeoutRun : List (Event audioMutexAttributes) :=
  [.lock 1 mutexA true, .tryLock 2 mutexA 1 false, .timedLockReturn 2 false,
    .tryLock 2 mutexA 1 false, .timedLockReturn 2 false]

/-- **A timed-out `try_lock` counts a wait and no lock.** After `timeoutRun`
every thread is between calls, and order 3 has counted one lock and two waits:
`to_string` computes `uncontested = locks - waits` as `2^64 - 1`. -/
theorem timedOut_waits_exceed_locks :
    ∃ s : Sys audioMutexAttributes, Sys.init.run timeoutRun = some s ∧ s.Reach ∧
      (∀ tid, (s.threads tid).phase = .idle) ∧
      (s.stats mutexA.order_).locks = 1 ∧ (s.stats mutexA.order_).waits = 2 ∧
      (s.stats mutexA.order_).uncontested.toNat = 2 ^ 64 - 1 := by
  obtain ⟨s, hs⟩ : ∃ s, Sys.init.run timeoutRun = some s := ⟨_, rfl⟩
  have hstat : (Sys.init.run timeoutRun).map (fun s => (s.stats 3, (s.threads 1).phase,
      (s.threads 2).phase)) = some ({ locks := 1, waits := 2 }, .idle, .idle) := by decide
  simp only [hs, Option.map_some', Option.some.injEq, Prod.mk.injEq] at hstat
  obtain ⟨hst, h1, h2⟩ := hstat
  refine ⟨s, hs, Sys.Reach.init.run _ hs, fun tid => ?_, by rw [show mutexA.order_ = 3 from rfl, hst],
    by rw [show mutexA.order_ = 3 from rfl, hst], by rw [show mutexA.order_ = 3 from rfl, hst]; decide⟩
  by_cases ht : tid ∈ timeoutRun.map Event.tid
  · simp only [timeoutRun, List.map, Event.tid, List.mem_cons, List.mem_singleton] at ht
    rcases ht with rfl | rfl | rfl | rfl | rfl | h <;> first | exact h1 | exact h2 | simp at h
  · rw [Sys.run_frame rfl _ hs tid ht]; rfl

end AudioUtils
