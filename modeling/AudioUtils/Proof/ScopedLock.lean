import AudioUtils.Proof.HeldStack

/-!
# `scoped_lock` and the order check

`audio_utils::scoped_lock<Mutex1, Mutex2>` acquires through std::lock, which
backs off when the second mutex is contended and then takes the second mutex
first. `try_lock` runs `pre_lock` as `lock` does, so the back-off meets the
order check.
-/

namespace AudioUtils

variable {A : Attributes} {N : ℕ}

/-- `check_held` stops at the first pair of smaller order: when every order is
smaller it reports nothing. -/
theorem checkList_of_lt {mutex order : ℕ} {ps : List (ℕ × ℕ)} (h : ∀ p ∈ ps, p.2 < order) :
    checkList mutex order ps = AtomicStack.invalid := by
  cases ps with
  | nil => rfl
  | cons p ps => exact if_pos (h p (List.mem_cons_self _ _))

/-- On a stack whose top has a greater order, `check_held` reports the top. -/
theorem ThreadMutexInfo.checkHeld_of_top (t : ThreadMutexInfo N) (hN : N < 2 ^ 63)
    (htop : t.mutexesHeld_.top_ ≤ N) {S : List (ℕ × ℕ)} {x p : ℕ}
    (hs : t.mutexesHeld_.subset = S ++ [(x, p)]) {mutex order : ℕ} (h : order < p) :
    t.checkHeld mutex order = (x, p) := by
  rw [t.checkHeld_eq hN htop, hs, List.reverse_append]
  simp only [List.reverse_singleton, List.singleton_append, checkList]
  rw [if_neg (by omega), if_pos h]

namespace Ctx

variable {c : Ctx A} {m : Mutex A}

/-- With `check_held` reporting nothing, `pre_lock` passes. -/
theorem preLock_of_invalid (h : c.info.checkHeld m.handle m.order_ = AtomicStack.invalid) :
    c.preLock m = .ok () := by
  unfold preLock
  split
  · rfl
  · rw [h]; exact if_pos rfl

/-- With the order check on, a reported pair of greater order aborts `pre_lock`. -/
theorem preLock_of_gt (hA : A.mutexTrackingEnabled_ = true) (hO : A.abortOnOrderCheck_ = true)
    {x p : ℕ} (h : c.info.checkHeld m.handle m.order_ = (x, p)) (hx : x ≠ 0) (hp : m.order_ < p) :
    c.preLock m = .error (.invalidOrder p m.order_) := by
  simp [preLock, hA, hO, h, hx, hp]

end Ctx

/-- A run goes on from a completed operation. -/
theorem Ctx.run_cons_of_ok {c c' : Ctx A} {op : Op A} (h : c.apply op = .ok c') (ops : List (Op A)) :
    c.run (op :: ops) = c'.run ops := by
  rw [Ctx.run, h]; rfl

/-- A run stops at a fatal error. -/
theorem Ctx.run_cons_of_error {c : Ctx A} {op : Op A} {e : Fatal} (h : c.apply op = .error e)
    (ops : List (Op A)) : c.run (op :: ops) = .error e := by
  rw [Ctx.run, h]; rfl

/-! ## One call of std::lock -/

section Calls

variable (hA : A.mutexTrackingEnabled_ = true) (hN : 0 < A.mutexStackDepth_)
  (hN' : A.mutexStackDepth_ < 2 ^ 63)
include hA hN hN'

variable {c : Ctx A} {L : List (ℕ × ℕ)} {m : Mutex A}

/-- With every held mutex of smaller order, `pre_lock` passes: the first pair
`check_held` reads already has a smaller order. -/
theorem Reach.preLock_of_lt (h : Reach A c L) (hL : ∀ p ∈ L, p.2 < m.order_) :
    c.preLock m = .ok () := by
  have ht := h.tracks hA hN
  refine Ctx.preLock_of_invalid ?_
  rw [ThreadMutexInfo.checkHeld_eq _ hN' ht.top_le]
  exact checkList_of_lt fun p hp => hL p (ht.subset_sublist.subset (List.mem_reverse.1 hp))

omit hA hN hN' in
/-- A `lock` that passes `pre_lock` completes with `m` held on top. -/
theorem Reach.lock (h : Reach A c L) (hp : c.preLock m = .ok ()) (u : Bool) :
    ∃ c', c.apply (.lock m u) = .ok c' ∧ Reach A c' (L ++ [(m.handle, m.order_)]) := by
  obtain ⟨c', ha⟩ : ∃ c', c.apply (.lock m u) = .ok c' := by simp only [Ctx.apply, hp]; exact ⟨_, rfl⟩
  exact ⟨c', ha, h.step (.lock m u) trivial ha⟩

omit hA hN hN' in
/-- A `try_lock()` that passes `pre_lock` completes, holding `m` when it acquired. -/
theorem Reach.tryLock (h : Reach A c L) (hp : c.preLock m = .ok ()) (acquired : Bool) :
    ∃ c', c.apply (.tryLock m 0 acquired) = .ok c' ∧
      Reach A c' (if acquired then L ++ [(m.handle, m.order_)] else L) := by
  obtain ⟨c', ha⟩ : ∃ c', c.apply (.tryLock m 0 acquired) = .ok c' := by
    simp only [Ctx.apply, hp]; exact ⟨_, rfl⟩
  exact ⟨c', ha, h.step (.tryLock m 0 acquired) trivial ha⟩

omit hN' in
/-- Unlocking a held mutex completes. -/
theorem Reach.unlock (h : Reach A c L) (hm : m.handle ∈ L.map Prod.fst) :
    ∃ c', c.apply (.unlock m) = .ok c' ∧ Reach A c' (eraseTop m.handle L) := by
  obtain ⟨c', ha⟩ := (h.release_ok hA hN hm).2.1
  exact ⟨c', ha, h.step (.unlock m) hm ha⟩

end Calls

/-! ## std::lock on two mutexes -/

section TwoMutexes

variable (hA : A.mutexTrackingEnabled_ = true) (hN : 0 < A.mutexStackDepth_)
  (hN' : A.mutexStackDepth_ < 2 ^ 63)
include hA hN hN'

variable {c : Ctx A} {L : List (ℕ × ℕ)} {m₁ m₂ : Mutex A}

omit hA hN hN' in
theorem lt_of_mem_append_lower (hlt : m₁.order_ < m₂.order_) (hL : ∀ p ∈ L, p.2 < m₁.order_) :
    ∀ p ∈ L ++ [(m₁.handle, m₁.order_)], p.2 < m₂.order_ := by
  simp only [List.mem_append, List.mem_singleton]
  rintro p (hp | rfl)
  exacts [(hL p hp).trans hlt, hlt]

/-- When the first try_lock acquires, both calls pass `pre_lock` and the thread
holds `m₁` and then `m₂`. -/
theorem Reach.scopedLock_acquired (h : Reach A c L) (hlt : m₁.order_ < m₂.order_)
    (hL : ∀ p ∈ L, p.2 < m₁.order_) (u : Bool) (attempts : List (Bool × Bool)) :
    ∃ c', c.run (scopedLock m₁ m₂ ((u, true) :: attempts)) = .ok c' ∧
      Reach A c' (L ++ [(m₁.handle, m₁.order_), (m₂.handle, m₂.order_)]) := by
  obtain ⟨c₁, ha₁, h₁⟩ := h.lock (h.preLock_of_lt hA hN hN' hL) u
  obtain ⟨c₂, ha₂, h₂⟩ :=
    h₁.tryLock (h₁.preLock_of_lt hA hN hN' (lt_of_mem_append_lower hlt hL)) true
  refine ⟨c₂, ?_, by simpa using h₂⟩
  rw [scopedLock, if_pos rfl, Ctx.run_cons_of_ok ha₁, Ctx.run_cons_of_ok ha₂]; rfl

/-- When the first try_lock fails, std::lock unlocks `m₁`, locks `m₂` and
try_locks `m₁`: `pre_lock` finds `m₂` on top and aborts, whatever the later
attempts would have been. -/
theorem Reach.scopedLock_backoff (hO : A.abortOnOrderCheck_ = true) (h : Reach A c L)
    (hlt : m₁.order_ < m₂.order_) (hL : ∀ p ∈ L, p.2 < m₁.order_) (u u' acquired : Bool)
    (attempts : List (Bool × Bool)) :
    c.run (scopedLock m₁ m₂ ((u, false) :: (u', acquired) :: attempts)) =
      .error (.invalidOrder m₂.order_ m₁.order_) := by
  obtain ⟨c₁, ha₁, h₁⟩ := h.lock (h.preLock_of_lt hA hN hN' hL) u
  obtain ⟨c₂, ha₂, h₂⟩ :=
    h₁.tryLock (h₁.preLock_of_lt hA hN hN' (lt_of_mem_append_lower hlt hL)) false
  have h₂ : Reach A c₂ (L ++ [(m₁.handle, m₁.order_)]) := h₂
  obtain ⟨c₃, ha₃, h₃⟩ :=
    h₂.unlock hA hN (show m₁.handle ∈ (L ++ [(m₁.handle, m₁.order_)]).map Prod.fst by simp)
  rw [eraseTop_append_self] at h₃
  obtain ⟨c₄, ha₄, h₄⟩ := h₃.lock (h₃.preLock_of_lt hA hN hN' fun p hp => (hL p hp).trans hlt) u'
  obtain ⟨S, hS⟩ := c₃.info.mutexesHeld_.subset_push_top hN (h₃.tracks hA hN).top_le
    m₂.handle m₂.order_
  have hc : c₄.info.checkHeld m₁.handle m₁.order_ = (m₂.handle, m₂.order_) :=
    ThreadMutexInfo.checkHeld_of_top _ hN' (h₄.tracks hA hN).top_le
      (by rw [Ctx.apply_stack hA ha₄]; exact hS) hlt
  have ha₅ : c₄.apply (.tryLock m₁ 0 acquired) = .error (.invalidOrder m₂.order_ m₁.order_) := by
    simp only [Ctx.apply, Ctx.preLock_of_gt hA hO hc m₂.handle_ne hlt]; rfl
  rw [scopedLock, if_neg Bool.false_ne_true, scopedLock, Ctx.run_cons_of_ok ha₁, Ctx.run_cons_of_ok ha₂,
    Ctx.run_cons_of_ok ha₃, Ctx.run_cons_of_ok ha₄, Ctx.run_cons_of_error ha₅]

end TwoMutexes

/-- **`scoped_lock` of two mutexes in order passes the order check only on
std::lock's first attempt.** A thread holding only mutexes of smaller order than
`m₁` takes `m₁` and `m₂`, of greater order. If the first try_lock of `m₂`
acquires, no `pre_lock` aborts and the thread holds both. If it fails, std::lock
unlocks `m₁`, locks `m₂` and try_locks `m₁`, and that `pre_lock` aborts with an
invalid order, whatever the contention after. -/
theorem scopedLock_backoff_aborts {c : Ctx audioMutexAttributes} {L : List (ℕ × ℕ)}
    (h : Reach audioMutexAttributes c L) {m₁ m₂ : Mutex audioMutexAttributes}
    (hlt : m₁.order_ < m₂.order_) (hL : ∀ p ∈ L, p.2 < m₁.order_) :
    (∀ u attempts, ∃ c', c.run (scopedLock m₁ m₂ ((u, true) :: attempts)) = .ok c' ∧
        Reach audioMutexAttributes c' (L ++ [(m₁.handle, m₁.order_), (m₂.handle, m₂.order_)])) ∧
      ∀ u u' acquired attempts,
        c.run (scopedLock m₁ m₂ ((u, false) :: (u', acquired) :: attempts)) =
          .error (.invalidOrder m₂.order_ m₁.order_) :=
  ⟨h.scopedLock_acquired rfl (by decide) (by decide) hlt hL,
    h.scopedLock_backoff rfl (by decide) (by decide) rfl hlt hL⟩

/-- A fresh thread takes `A` (order 3) and `B` (order 5) with `scoped_lock`. -/
theorem scopedLock_backoff_aborts_fresh :
    (∀ u attempts, ∃ c', ctx₀.run (scopedLock mutexA mutexB ((u, true) :: attempts)) = .ok c' ∧
        Reach audioMutexAttributes c' ([] ++ [(mutexA.handle, mutexA.order_),
          (mutexB.handle, mutexB.order_)])) ∧
      ∀ u u' acquired attempts,
        ctx₀.run (scopedLock mutexA mutexB ((u, false) :: (u', acquired) :: attempts)) =
          .error (.invalidOrder mutexB.order_ mutexA.order_) :=
  scopedLock_backoff_aborts (Reach.init _ 1) (by decide) (by simp)

/-- `B` is contended at the first try_lock: std::lock backs off, locks `B` and
try_locks `A`, which aborts. -/
theorem scopedLock_contended_aborts :
    mutexA.order_ < mutexB.order_ ∧
      ctx₀.run (scopedLock mutexA mutexB [(true, false), (true, true)]) =
        .error (.invalidOrder 5 3) :=
  ⟨by decide, rfl⟩

end AudioUtils
