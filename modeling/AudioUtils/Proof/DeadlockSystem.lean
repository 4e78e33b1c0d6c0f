import AudioUtils.Proof.Descriptors
import AudioUtils.Proof.DeadlockWalk

/-!
# `deadlock_detection` on the running process

`Sys.snapshot s ts` is the registry map of a state `s` in which the threads `ts`
are registered, read while no thread moves. In a reachable state, by
`Sys.Reach.tracked`:

* a pair the detector reads from a held stack is a mutex the thread owns, and
  when no `push` was dropped every mutex it owns on `held` is read
  (`succ_snapshot_iff`); a mutex it owns while it evaluates a predicate wait's
  `stop_waiting` is on no stack;
* no handle is in two held stacks, since no OS mutex has two owners
  (`Sys.Reach.handlesUnique`);
* the wait the detector loads is the mutex the thread is blocked on.

So `deadlock_detection` follows the process's wait-for graph
(`deadlockDetection_waitsFor`): from a thread blocked on a mutex to the
registered thread that owns it on `held`, otherwise along the thread's recorded
condition-variable, join or queue wait; `has_cycle` says that the walk from the
target revisits a thread. Threads blocked in `lock` on mutexes owned among
themselves stay so in every run (`deadlocked_run`). When none of them is
evaluating a predicate wait's `stop_waiting`, the detector reports `has_cycle`
from each of them (`deadlocked_reported`); otherwise it may not, since such a
mutex is on no held stack (`predicateDeadlock_unreported`). Conversely, a
reported cycle of threads blocked in `lock` with no other wait is such a
deadlock (`reported_deadlocked`).
-/

namespace AudioUtils

variable {A : Attributes}

namespace Sys

variable (s : Sys A) (ts : List ℤ)

/-- The registry map of `s` when the threads `ts` are registered, each with a
live descriptor, read while no thread moves. -/
def snapshot (hts : ts.Nodup) : RegistryMap A.mutexStackDepth_ :=
  ⟨ts.map fun t => (t, some (s.threads t).info), by simpa [Function.comp_def] using hts⟩

/-- What the detector should load of thread `t`: the handle of the mutex it is
blocked on, and its recorded other wait. -/
def waitState (t : ℤ) : WaitState :=
  ⟨(s.threads t).phase.waitHandle, (s.threads t).info.otherWaitInfo_⟩

/-- Thread `v`, registered in `ts`, owns a mutex with handle `h`, of order `o`,
on `held`: not inside a predicate evaluation. -/
def OwnsIn (v : ℤ) (h o : ℕ) : Prop :=
  v ∈ ts ∧ ∃ mx, (mx, v) ∈ s.held ∧ mx.handle = h ∧ mx.order_ = o

/-- No pair pushed on the held stacks of `ts` was dropped: `top_ = true_top_`. -/
def NoneDropped : Prop :=
  ∀ v ∈ ts, (s.threads v).info.mutexesHeld_.trueTop_ = (s.threads v).info.mutexesHeld_.top_

instance : Decidable (s.NoneDropped ts) :=
  inferInstanceAs (Decidable (∀ v ∈ ts, _ = _))

/-- The edges of the process's wait-for graph over `ts` from a thread in state
`w`: to a registered owner of the mutex it is blocked on; when no registered
thread owns it, along its recorded other wait if that names a tid. -/
def WaitEdge (w : WaitState) : Edge → Prop
  | .mutex v o => s.OwnsIn ts v w.mutexWait o
  | .other v o r =>
    (∀ v' o', ¬ s.OwnsIn ts v' w.mutexWait o') ∧ v ≠ kInvalidTid ∧ w.otherWait = ⟨v, r, o⟩

/-- Thread `u`, registered in `ts`, waits for `v`; `l` labels the chain entry. -/
def WaitsFor (names : List String) (u v : ℤ) (l : String) : Prop :=
  u ∈ ts ∧ ∃ e, s.WaitEdge ts (s.waitState u) e ∧ e.tid = v ∧ chainLabel names e = l

/-- `chain` is a walk of the wait-for graph from `u`. -/
inductive WaitWalk (names : List String) : ℤ → List (ℤ × String) → Prop
  | nil (u : ℤ) : WaitWalk names u []
  | cons {u v : ℤ} {l : String} {chain : List (ℤ × String)} :
    s.WaitsFor ts names u v l → WaitWalk names v chain → WaitWalk names u ((v, l) :: chain)

/-! ## The snapshot of a reachable state -/

variable {s ts} {hts : ts.Nodup}

@[simp] theorem keys_snapshot : (s.snapshot ts hts).keys = ts := by
  simp [snapshot, RegistryMap.keys, Function.comp_def]

theorem tidToInfo_snapshot {v : ℤ} {d : ThreadMutexInfo A.mutexStackDepth_} :
    (s.snapshot ts hts).tidToInfo v = some d ↔ v ∈ ts ∧ (s.threads v).info = d := by
  rw [RegistryMap.tidToInfo_eq_some]
  simp only [snapshot, List.mem_map, Prod.mk.injEq, Option.some.injEq]
  exact ⟨fun ⟨_, ha, he, hd⟩ => he ▸ ⟨ha, hd⟩, fun ⟨hv, hd⟩ => ⟨v, hv, rfl, hd⟩⟩

theorem Tracked.waitOf_snapshot (hs : s.Tracked) {v : ℤ} (hv : v ∈ ts) :
    (s.snapshot ts hts).waitOf v = some (s.waitState v) := by
  rw [RegistryMap.waitOf, tidToInfo_snapshot.2 ⟨hv, rfl⟩, Option.map_some', ThreadMutexInfo.waitState,
    show (s.threads v).info.mutexWait_ = _ from hs.waitOk v]
  rfl

/-- A pair the detector reads from a held stack is a mutex the thread owns. -/
theorem Tracked.ownsIn_of_holds (hs : s.Tracked) {v : ℤ} {h o : ℕ}
    (hh : (s.snapshot ts hts).Holds v h o) : s.OwnsIn ts v h o := by
  obtain ⟨-, d, hd, hp⟩ := hh
  obtain ⟨hv, rfl⟩ := tidToInfo_snapshot.1 hd
  exact ⟨hv, mem_ownedBy.1 ((hs.tracks v).subset_sublist.subset hp)⟩

/-- When no `push` was dropped, every mutex a registered thread owns is read. -/
theorem Tracked.holds_of_ownsIn (hs : s.Tracked) (hx : s.NoneDropped ts) {v : ℤ} {h o : ℕ}
    (ho : s.OwnsIn ts v h o) : (s.snapshot ts hts).Holds v h o := by
  obtain ⟨hv, mx, hm, rfl, rfl⟩ := ho
  refine ⟨mx.handle_ne, _, tidToInfo_snapshot.2 ⟨hv, rfl⟩, ?_⟩
  rw [(hs.tracks v).subset_eq (hx v hv)]
  exact mem_ownedBy.2 ⟨mx, hm, rfl, rfl⟩

section Exact

variable (hs : s.Tracked) (hx : s.NoneDropped ts)
include hs hx

/-- On a snapshot whose stacks dropped nothing, succ is the wait-for graph. -/
theorem succ_snapshot_iff {names : List String} {u v : ℤ} {l : String} :
    (s.snapshot ts hts).Succ names u v l ↔ s.WaitsFor ts names u v l := by
  have hown : ∀ v h o, (s.snapshot ts hts).Holds v h o ↔ s.OwnsIn ts v h o :=
    fun _ _ _ => ⟨hs.ownsIn_of_holds, hs.holds_of_ownsIn hx⟩
  have hedge : ∀ e, (s.snapshot ts hts).SuccEdge (s.waitState u) e ↔
      s.WaitEdge ts (s.waitState u) e := by
    intro e
    cases e <;> simp only [RegistryMap.SuccEdge, WaitEdge, hown]
  constructor
  · rintro ⟨w, e, hw, he, rfl, rfl⟩
    have hu : u ∈ ts := by simpa using (s.snapshot ts hts).mem_keys_of_waitOf hw
    rw [hs.waitOf_snapshot hu, Option.some.injEq] at hw
    subst hw
    exact ⟨hu, e, (hedge e).1 he, rfl, rfl⟩
  · rintro ⟨hu, e, he, rfl, rfl⟩
    exact ⟨_, e, hs.waitOf_snapshot hu, (hedge e).2 he, rfl, rfl⟩

theorem succWalk_snapshot_iff {names : List String} {u : ℤ} {chain : List (ℤ × String)} :
    (s.snapshot ts hts).SuccWalk names u chain ↔ s.WaitWalk ts names u chain := by
  constructor
  · intro h
    induction h with
    | nil u => exact .nil u
    | cons hsucc _ ih => exact .cons ((succ_snapshot_iff hs hx).1 hsucc) ih
  · intro h
    induction h with
    | nil u => exact .nil u
    | cons hw _ ih => exact .cons ((succ_snapshot_iff hs hx).2 hw) ih

end Exact

end Sys

namespace Sys

variable {s s' : Sys A}

/-- The threads `d` are deadlocked on mutexes: each is blocked in `m_.lock()` on
a mutex that a thread of `d` owns, on `held` or inside a predicate evaluation. -/
def Deadlocked (s : Sys A) (d : List ℤ) : Prop :=
  ∀ u ∈ d, ∃ m, (s.threads u).phase = .lockWait m ∧
    ∃ mx v, v ∈ d ∧ (mx, v) ∈ s.held ++ s.cvHeld ∧ mx.handle = m.handle

/-- A thread blocked in `lock` on an owned mutex takes no step. -/
theorem step_of_blocked {tid : ℤ} {m : Mutex A} (hph : (s.threads tid).phase = .lockWait m)
    (hm : ¬ s.Free m) {e : Event A} (ht : e.tid = tid) : s.step e = none := by
  cases e <;> simp only [Event.tid] at ht <;> subst ht
  case lockAcquire => simp [step, hph, hm]
  all_goals simp [step, hph]

end Sys

/-- An effect of thread `tid` keeps what the other threads own. -/
theorem Effect.mem_owned_of_ne (eff : Effect A) {held cvHeld : List (Mutex A × ℤ)} {tid v : ℤ}
    {mx : Mutex A} (hv : v ≠ tid) (hm : (mx, v) ∈ held ++ cvHeld) :
    (mx, v) ∈ eff.held tid held ++ eff.cvHeld tid cvHeld := by
  have hne : ∀ m : Mutex A, (mx, v) ≠ (m, tid) := fun _ h => hv (Prod.mk.inj h).2
  rw [List.mem_append] at hm ⊢
  cases eff <;> simp only [Effect.held, Effect.cvHeld, List.mem_cons, List.mem_erase_of_ne (hne _), hne,
    false_or] <;> exact hm

namespace Sys

variable {s s' : Sys A} {d : List ℤ}

/-- A mutex deadlock survives every step of every thread. -/
theorem Deadlocked.step (hA : A.mutexTrackingEnabled_ = true) (h : s.Deadlocked d) {e : Event A}
    (he : s.step e = some s') : s'.Deadlocked d := by
  by_cases hd : e.tid ∈ d
  · obtain ⟨m, hph, mx, v, -, hm, hh⟩ := h _ hd
    rw [step_of_blocked hph (fun hf => hf _ hm hh) rfl] at he
    cases he
  · obtain ⟨eff, ha⟩ := step_effect hA he
    intro u hu
    obtain ⟨m, hph, mx, v, hv, hm, hh⟩ := h u hu
    refine ⟨m, by rw [ha.frame u (ne_of_mem_of_not_mem hu hd)]; exact hph, mx, v, hv, ?_, hh⟩
    rw [ha.held, ha.cvHeld]
    exact eff.mem_owned_of_ne (ne_of_mem_of_not_mem hv hd) hm

/-- **A mutex deadlock is permanent.** If the threads `d` are each blocked in
`m_.lock()` on a mutex that one of them owns, then after any sequence of steps
of any threads they still are. -/
theorem deadlocked_run (hA : A.mutexTrackingEnabled_ = true) :
    ∀ (es : List (Event A)) {s s' : Sys A}, s.Deadlocked d → s.run es = some s' → s'.Deadlocked d
  | [], _, _, h, hrun => by cases hrun; exact h
  | e :: es, s, _, h, hrun => by
    cases he : s.step e with
    | none => simp [Sys.run, he] at hrun
    | some s₁ =>
      simp only [Sys.run, he, Option.some_bind] at hrun
      exact deadlocked_run hA es (h.step hA he) hrun

variable {ts : List ℤ} {names : List String}

section OnHeld

/-! No thread of `d` is evaluating a predicate wait's `stop_waiting`. -/

variable (hcv : ∀ p ∈ s.cvHeld, p.2 ∉ d)
include hcv

/-- Then the threads of a deadlock own the mutexes they wait on on `held`. -/
theorem Deadlocked.owner_held (h : s.Deadlocked d) {u : ℤ} (hu : u ∈ d) :
    ∃ m, (s.threads u).phase = .lockWait m ∧ ∃ mx v, v ∈ d ∧ (mx, v) ∈ s.held ∧ mx.handle = m.handle := by
  obtain ⟨m, hph, mx, v, hv, hm, hh⟩ := h u hu
  exact ⟨m, hph, mx, v, hv, (List.mem_append.1 hm).resolve_right fun h' => hcv _ h' hv, hh⟩

/-- A deadlocked thread waits for a registered thread of the deadlock. -/
theorem Deadlocked.waitsFor (h : s.Deadlocked d) (hts : ∀ u ∈ d, u ∈ ts) {u : ℤ} (hu : u ∈ d) :
    ∃ v l, s.WaitsFor ts names u v l := by
  obtain ⟨m, hph, mx, v, hv, hm, hh⟩ := h.owner_held hcv hu
  have hw : (s.waitState u).mutexWait = m.handle := by rw [waitState, hph]; rfl
  exact ⟨v, _, hts u hu, .mutex v mx.order_, ⟨hts v hv, mx, hm, hh.trans hw.symm, rfl⟩, rfl, rfl⟩

/-- Every thread a deadlocked thread waits for is in the deadlock. -/
theorem Deadlocked.mem_of_waitsFor (h : s.Deadlocked d) (hts : ∀ u ∈ d, u ∈ ts)
    (hnd : (s.held.map fun p => p.1.handle).Nodup) {u v : ℤ} {l : String} (hu : u ∈ d)
    (hw : s.WaitsFor ts names u v l) : v ∈ d := by
  obtain ⟨m, hph, mx, v₀, hv₀, hm, hh⟩ := h.owner_held hcv hu
  have hwait : (s.waitState u).mutexWait = m.handle := by rw [waitState, hph]; rfl
  obtain ⟨-, e, he, rfl, -⟩ := hw
  cases e with
  | mutex v o =>
    obtain ⟨-, mx', hm', hh', -⟩ := he
    have := List.inj_on_of_nodup_map hnd hm' hm (hh'.trans (hwait.trans hh.symm))
    exact (Prod.mk.inj this).2 ▸ hv₀
  | other v o r => exact absurd ⟨hts _ hv₀, mx, hm, hh.trans hwait.symm, rfl⟩ (he.1 v₀ mx.order_)

end OnHeld

/-- A wait-for walk from a thread of a set closed under waits-for ends in it. -/
theorem WaitWalk.getLastD_mem {P : ℤ → Prop} (hP : ∀ u v l, P u → s.WaitsFor ts names u v l → P v)
    {u : ℤ} {chain : List (ℤ × String)} (hw : s.WaitWalk ts names u chain) (hu : P u) :
    P ((chain.map Prod.fst).getLastD u) := by
  induction hw with
  | nil u => exact hu
  | cons hs _ ih => rw [List.map_cons, List.getLastD_cons]; exact ih (hP _ _ _ hu hs)

/-- Every thread of a wait-for walk but the last waits for a thread of the walk. -/
theorem WaitWalk.waitsFor_mem {u : ℤ} {chain : List (ℤ × String)} (hw : s.WaitWalk ts names u chain) :
    ∀ x ∈ (u :: chain.map Prod.fst).dropLast, ∃ v ∈ u :: chain.map Prod.fst, ∃ l,
      s.WaitsFor ts names x v l := by
  induction hw with
  | nil u => simp
  | cons h _ ih =>
    intro x hx
    rw [List.map_cons, List.dropLast_cons₂, List.mem_cons] at hx
    rcases hx with rfl | hx
    · exact ⟨_, List.mem_cons_of_mem _ (List.mem_cons_self _ _), _, h⟩
    · obtain ⟨v, hv, l, hl⟩ := ih x hx
      exact ⟨v, List.mem_cons_of_mem _ hv, l, hl⟩

end Sys

/-- **A mutex deadlock is reported.** In every reachable state, with tracking on,
if the threads `d` are each blocked in `m_.lock()` on a mutex that one of them
owns, and none of them is evaluating a predicate wait's `stop_waiting`, then
`deadlock_detection` from any of them reports `has_cycle`, on every registry
that holds them and whose held stacks dropped nothing. -/
theorem deadlocked_reported (hA : A.mutexTrackingEnabled_ = true) (hN : 0 < A.mutexStackDepth_)
    {s : Sys A} (hr : s.Reach) {ts : List ℤ} (hts : ts.Nodup) (hx : s.NoneDropped ts) {d : List ℤ}
    (hd : s.Deadlocked d) (hcv : ∀ p ∈ s.cvHeld, p.2 ∉ d) (hdts : ∀ u ∈ d, u ∈ ts) (names : List String)
    {t : ℤ} (ht : t ∈ d) :
    ∃ info, deadlockDetection (s.snapshot ts hts) names t = some info ∧ info.hasCycle = true := by
  have hs := Sys.Tracked.of_reach hA hN hr
  obtain ⟨info, h, ha⟩ := (s.snapshot ts hts).deadlockDetection_answers names t
  refine ⟨info, h, ?_⟩
  by_contra hc
  have hlast : info.lastTid ∈ d := by
    rw [DeadlockInfo.lastTid, ha.tid_eq]
    exact ((Sys.succWalk_snapshot_iff hs hx).1 ha.walk).getLastD_mem
      (fun _ _ _ hu => hd.mem_of_waitsFor hcv hdts (hr.balanced hA).nodup_held hu) ht
  obtain ⟨v, l, hvl⟩ := hd.waitsFor hcv hdts hlast
  exact ha.stuck (by simpa using hc) v l ((Sys.succ_snapshot_iff hs hx).2 hvl)

/-- Thread 1 locks `A` and waits on a condition variable with a predicate through
it; while thread 1 evaluates `stop_waiting`, owning `A`, thread 2 locks `D` and
blocks on `A`, and thread 1 blocks on `D`. -/
def predicateDeadlockRun : List (Event audioMutexAttributes) :=
  [.lock 1 mutexA true, .cvWaitBegin 1 mutexA 2 true, .lock 2 mutexD true, .lock 2 mutexA false,
    .lock 1 mutexD false]

/-- The state after `predicateDeadlockRun`. -/
def predicateDeadlocked : Sys audioMutexAttributes := (Sys.init.run predicateDeadlockRun).getD Sys.init

/-- **A deadlock through a predicate wait goes unreported.** After
`predicateDeadlockRun` threads 1 and 2 are deadlocked: thread 1 is blocked on
`D`, owned by thread 2, and thread 2 on `A`, owned by thread 1 inside
`stop_waiting`. No held stack has `A`, and none dropped a push, yet
`deadlock_detection` from thread 1 stops at thread 2 and reports no cycle. -/
theorem predicateDeadlock_unreported :
    Sys.init.run predicateDeadlockRun = some predicateDeadlocked ∧
      predicateDeadlocked.Deadlocked [1, 2] ∧ (mutexA, 1) ∈ predicateDeadlocked.cvHeld ∧
      predicateDeadlocked.NoneDropped [1, 2] ∧
      ∃ info, deadlockDetection (predicateDeadlocked.snapshot [1, 2] (by decide)) gMutexNames 1 = some info ∧
        info.hasCycle = false := by
  refine ⟨rfl, fun u hu => ?_, by decide, by decide, _, rfl, rfl⟩
  simp only [List.mem_cons, List.mem_singleton, List.not_mem_nil, or_false] at hu
  rcases hu with rfl | rfl
  · exact ⟨mutexD, by decide, mutexD, 2, by decide, by decide, rfl⟩
  · exact ⟨mutexA, by decide, mutexA, 1, by decide, by decide, rfl⟩

/-- The cross-locked threads are deadlocked. -/
theorem crossLocked_deadlocked : crossLocked.Deadlocked [1, 2] := by
  intro u hu
  simp only [List.mem_cons, List.mem_singleton, List.not_mem_nil, or_false] at hu
  rcases hu with rfl | rfl
  · exact ⟨mutexD, by decide, mutexD, 2, by decide, by decide, rfl⟩
  · exact ⟨mutexA, by decide, mutexA, 1, by decide, by decide, rfl⟩

/-- Thread 3 locks `B`, records a join wait on thread 1 and ends it, waits on a
condition variable with a predicate through `B` (false once, true after the
wake-up), and unlocks `B`. -/
def bystanderRun : List (Event audioMutexAttributes) :=
  [.lock 3 mutexB true, .joinWaitBegin 3 1, .joinWaitEnd 3, .cvWaitBegin 3 mutexB 1 true,
    .cvPredicate 3 false, .cvWaitEnd 3, .cvPredicate 3 true, .unlock 3 mutexB]

theorem deadlocked_run_crossLocked :
    ∃ s', crossLocked.run bystanderRun = some s' ∧ s'.Deadlocked [1, 2] := by
  obtain ⟨s', hs'⟩ : ∃ s', crossLocked.run bystanderRun = some s' := ⟨_, rfl⟩
  exact ⟨s', hs', Sys.deadlocked_run rfl _ crossLocked_deadlocked hs'⟩

theorem deadlocked_reported_crossLocked :
    ∃ info, deadlockDetection (crossLocked.snapshot [1, 2] (by decide)) gMutexNames 1 = some info ∧
      info.hasCycle = true :=
  deadlocked_reported rfl (by decide) (Sys.Reach.init.run _ crossLocked_run) (by decide) (by decide)
    crossLocked_deadlocked (by decide) (by decide) gMutexNames (by decide)

/-- **A reported cycle of lock waits is a deadlock.** In every reachable state,
with tracking on, on a registry whose held stacks dropped nothing: if
`deadlock_detection(t)` reports `has_cycle` and every thread on the reported path
is blocked in `m_.lock()` with no other wait recorded, those threads are
deadlocked on mutexes, and so stay blocked in every run. -/
theorem reported_deadlocked (hA : A.mutexTrackingEnabled_ = true) (hN : 0 < A.mutexStackDepth_)
    {s : Sys A} (hr : s.Reach) {ts : List ℤ} (hts : ts.Nodup) (hx : s.NoneDropped ts)
    (names : List String) {t : ℤ} {info : DeadlockInfo}
    (h : deadlockDetection (s.snapshot ts hts) names t = some info) (hc : info.hasCycle = true)
    (hl : ∀ u ∈ info.path, (∃ m, (s.threads u).phase = .lockWait m) ∧
      (s.threads u).info.otherWaitInfo_.tid_ = kInvalidTid) :
    s.Deadlocked info.path := by
  have hs := Sys.Tracked.of_reach hA hN hr
  obtain ⟨info', h', ha⟩ := (s.snapshot ts hts).deadlockDetection_answers names t
  obtain rfl : info = info' := Option.some.inj (h.symm.trans h')
  have hw := (Sys.succWalk_snapshot_iff hs hx).1 ha.walk
  have hpath : info.path = t :: info.chain.map Prod.fst := by rw [DeadlockInfo.path, ha.tid_eq]
  have hdrop : ∀ u ∈ info.path, u ∈ info.path.dropLast := by
    intro u hu
    rw [DeadlockInfo.path_eq_dropLast_append, List.mem_append, List.mem_singleton] at hu
    rcases hu with hu | rfl
    · exact hu
    · exact ha.cycle_iff.1 hc
  intro u hu
  obtain ⟨⟨m, hph⟩, hinv⟩ := hl u hu
  obtain ⟨v, hv, l, -, e, he, rfl, -⟩ := hw.waitsFor_mem u (hpath ▸ hdrop u hu)
  have hwait : (s.waitState u).mutexWait = m.handle := by rw [Sys.waitState, hph]; rfl
  refine ⟨m, hph, ?_⟩
  cases e with
  | mutex v o =>
    obtain ⟨-, mx, hm, hh, -⟩ := he
    exact ⟨mx, v, hpath ▸ hv, List.mem_append_left _ hm, hh.trans hwait⟩
  | other v o r => exact absurd ((congrArg OtherWaitInfo.tid_ he.2.2).symm.trans hinv) he.2.1

/-- The cycle reported from thread 1 of the cross-locked state. -/
def crossLockedCycle : DeadlockInfo :=
  { tid := 1, hasCycle := true, chain := [(2, "EffectBase_PolicyMutex"), (1, "EffectBase_PolicyMutex")] }

theorem reported_deadlocked_crossLocked :
    crossLocked.Deadlocked crossLockedCycle.path :=
  reported_deadlocked rfl (by decide) (Sys.Reach.init.run _ crossLocked_run)
    (by decide : ([1, 2] : List ℤ).Nodup) (by decide) gMutexNames (t := 1) (by decide) rfl fun u hu => by
      simp only [crossLockedCycle, DeadlockInfo.path, List.map_cons, List.map_nil, List.mem_cons,
        List.mem_singleton, List.not_mem_nil, or_false] at hu
      rcases hu with rfl | rfl | rfl
      · exact ⟨⟨mutexD, by decide⟩, by decide⟩
      · exact ⟨⟨mutexA, by decide⟩, by decide⟩
      · exact ⟨⟨mutexD, by decide⟩, by decide⟩

end AudioUtils
