import AudioUtils.Spec.Mutex
import AudioUtils.Proof.Stack

/-!
# The held stack of one thread

`Reach A c L`: the context `c` of a thread is reached from a fresh descriptor by
complete operations in which only held mutexes are released, and `L` lists the
mutexes the thread holds, in the order it took them (a condition-variable wait
releases its mutex and takes it again on exit).

* `Reach.tracks`: the thread's `atomic_stack` tracks `L` (`Tracks`), at any depth.
* `checkHeld_eq`: `check_held` is a scan of the tracked pairs from the top.
* `no_false_aborts`: releasing a held mutex never hits the invalid-unlock abort,
  and `check_held` only ever reports a held mutex that is the one acquired or of
  greater order; so acquiring in non-decreasing order without recursion never
  aborts.
* `cvWait_breaks_orderCheck`: a condition-variable wait on a mutex below the top
  pushes it back with no order check, after which `pre_lock` misses an inversion.
-/

namespace AudioUtils

/-! ## `top` and `check_held` on a tracked stack -/

/-- `static_cast<ssize_t>` changes nothing in the `ssize_t` range. -/
theorem ssize_eq_self {x : ℤ} (h1 : -2 ^ 63 ≤ x) (h2 : x < 2 ^ 63) : ssize x = x := by
  unfold ssize Int.bmod
  dsimp only
  push_cast
  split <;> omega

theorem ssize_of_lt {x : ℤ} (h0 : 0 ≤ x) (h : x < 2 ^ 63) : ssize x = x := ssize_eq_self (by omega) h

namespace AtomicStack

variable {N : ℕ}

/-- Below the top, `top(i)` is the `i`-th tracked pair from the top. -/
theorem top_eq (s : AtomicStack ℕ ℕ N) (hN : N < 2 ^ 63) (htop : s.top_ ≤ N) {i : ℕ}
    (hi : i < s.subset.reverse.length) : s.top i = s.subset.reverse[i] := by
  simp only [List.length_reverse, length_subset] at hi
  have h1 : ssize (s.top_ : ℤ) = s.top_ := ssize_of_lt (by omega) (by omega)
  have h2 : ssize (i : ℤ) = i := ssize_of_lt (by omega) (by omega)
  rw [List.getElem_reverse, getElem_subset, top, h1, h2, ssize_of_lt (by omega) (by omega),
    if_pos (by omega)]
  simp only [length_subset]
  rw [show ((s.top_ : ℤ) - i - 1).toNat = s.top_ - 1 - i by omega]

/-- **`top` is right below `2^63`.** For every offset below `2^63`, `top(offset)`
is `pairs_[size() - 1 - offset]` when `offset < size()` and `invalid_` otherwise. -/
theorem top_of_lt (s : AtomicStack ℕ ℕ N) (hN : N < 2 ^ 63) (htop : s.top_ ≤ N) {offset : ℕ}
    (ho : offset < 2 ^ 63) :
    s.top offset =
      if offset < s.size then s.pairs_.getD (s.size - 1 - offset) default else invalid := by
  unfold top size
  rw [ssize_of_lt (by omega) (by omega : (s.top_ : ℤ) < 2 ^ 63),
    ssize_of_lt (by omega) (by omega : (offset : ℤ) < 2 ^ 63), ssize_eq_self (by omega) (by omega)]
  by_cases h : offset < s.top_
  · rw [if_pos (by omega), if_pos h, show ((s.top_ : ℤ) - offset - 1).toNat = s.top_ - 1 - offset by omega]
  · rw [if_neg (by omega), if_neg h]

/-- On the full stack of sixteen pairs, `top(3)` is slot `12`. -/
theorem top_of_lt_full :
    fullStack.top 3 = (13, 0) ∧ fullStack.top 3 =
      if 3 < fullStack.size then fullStack.pairs_.getD (fullStack.size - 1 - 3) default else invalid :=
  ⟨by decide, top_of_lt fullStack (by decide) (by decide) (by decide)⟩

/-- **`top` wraps for offsets from `2^63` on.** Push and remove one mutex: the
stack is empty again and `pairs_[0]` still holds the pair. `top(SIZE_MAX)`, where
`static_cast<ssize_t>(offset)` is `-1`, computes `size() + 1 = 1` and returns
`pairs_[0]`; `bottom(SIZE_MAX)` returns `invalid_`. -/
theorem top_wraps_past_size :
    (((AtomicStack.empty : AtomicStack ℕ ℕ 16).push 5 3).remove 5).2.size = 0 ∧
      (((AtomicStack.empty : AtomicStack ℕ ℕ 16).push 5 3).remove 5).2.top (2 ^ 64 - 1) = (5, 3) ∧
      ((5, 3) : ℕ × ℕ) ≠ invalid ∧
      (((AtomicStack.empty : AtomicStack ℕ ℕ 16).push 5 3).remove 5).2.bottom (2 ^ 64 - 1) = invalid := by
  decide

end AtomicStack

/-- `check_held` on a list of pairs read from the top. -/
def checkList (mutex order : ℕ) : List (ℕ × ℕ) → ℕ × ℕ
  | [] => AtomicStack.invalid
  | p :: ps =>
    if p.2 < order then AtomicStack.invalid
    else if p.2 > order then p
    else if p.1 = mutex then p
    else checkList mutex order ps

namespace ThreadMutexInfo

variable {N : ℕ}

/-- **`check_held` scans the tracked pairs from the top.** -/
theorem checkHeld_eq (t : ThreadMutexInfo N) (hN : N < 2 ^ 63) (htop : t.mutexesHeld_.top_ ≤ N)
    (mutex order : ℕ) :
    t.checkHeld mutex order = checkList mutex order t.mutexesHeld_.subset.reverse := by
  have key : ∀ k i, i + k = t.mutexesHeld_.top_ →
      checkHeldLoop t.mutexesHeld_ mutex order i k =
        checkList mutex order (t.mutexesHeld_.subset.reverse.drop i) := by
    intro k
    induction k with
    | zero =>
      intro i hi
      rw [List.drop_eq_nil_of_le (by simp [AtomicStack.length_subset]; omega)]
      rfl
    | succ k ih =>
      intro i hi
      have hlt : i < t.mutexesHeld_.subset.reverse.length := by
        simp [AtomicStack.length_subset]; omega
      rw [List.drop_eq_getElem_cons hlt, checkHeldLoop, checkList,
        ← AtomicStack.top_eq _ hN htop hlt, ih (i + 1) (by omega)]
  simpa using key _ 0 (by simp [AtomicStack.size])

end ThreadMutexInfo

/-- What `check_held` reports: nothing, or a scanned pair of greater order or
with the same handle. -/
theorem checkList_cases (mutex order : ℕ) (ps : List (ℕ × ℕ)) :
    checkList mutex order ps = AtomicStack.invalid ∨
      (checkList mutex order ps ∈ ps ∧
        ((checkList mutex order ps).1 = mutex ∨ order < (checkList mutex order ps).2)) := by
  induction ps with
  | nil => exact Or.inl rfl
  | cons p ps ih =>
    simp only [checkList]
    split
    · exact Or.inl rfl
    split
    · exact Or.inr ⟨List.mem_cons_self _ _, Or.inr ‹_›⟩
    split
    · exact Or.inr ⟨List.mem_cons_self _ _, Or.inl ‹_›⟩
    rcases ih with h | ⟨hm, hc⟩
    · exact Or.inl h
    · exact Or.inr ⟨List.mem_cons_of_mem _ hm, hc⟩

/-- With no pair of greater order and none with the handle, `check_held` reports
nothing. -/
theorem checkList_eq_invalid {mutex order : ℕ} {ps : List (ℕ × ℕ)}
    (h : ∀ p ∈ ps, p.2 ≤ order ∧ p.1 ≠ mutex) : checkList mutex order ps = AtomicStack.invalid := by
  rcases checkList_cases mutex order ps with h' | ⟨hm, hc⟩
  · exact h'
  · have := h _ hm; omega

/-- On a list read from the top of a stack sorted by order, in which every pair
with the handle has the order `o`, `check_held` finds nothing exactly when no
pair has a greater order or the handle. -/
theorem checkList_eq_invalid_iff {mutex order : ℕ} (hm : mutex ≠ 0) :
    ∀ {ps : List (ℕ × ℕ)}, ps.Pairwise (fun p q => q.2 ≤ p.2) → (∀ p ∈ ps, p.1 = mutex → p.2 = order) →
      (checkList mutex order ps = AtomicStack.invalid ↔ ∀ p ∈ ps, p.2 ≤ order ∧ p.1 ≠ mutex)
  | [], _, _ => iff_of_true rfl (by simp)
  | p :: ps, hs, hmo => by
    obtain ⟨hle, hps⟩ := List.pairwise_cons.1 hs
    have hinv : AtomicStack.invalid = ((0, 0) : ℕ × ℕ) := rfl
    simp only [checkList, List.mem_cons, forall_eq_or_imp]
    split
    · refine iff_of_true rfl ⟨⟨by omega, fun he => by have := hmo p (.head _) he; omega⟩, fun q hq => ?_⟩
      have := hle q hq
      exact ⟨by omega, fun he => by have := hmo q (.tail _ hq) he; omega⟩
    split
    next hgt => exact iff_of_false (fun h => by rw [h, hinv] at hgt; omega) (by omega)
    split
    next he => exact iff_of_false (fun h => hm (by rw [← he, h, hinv])) fun h => h.1.2 he
    · rw [checkList_eq_invalid_iff hm hps fun q hq => hmo q (.tail _ hq)]
      exact ⟨fun h => ⟨⟨by omega, ‹_›⟩, h⟩, And.right⟩

/-- **`check_held` is exact on sorted stacks.** On a held stack sorted by order
from bottom to top, in which every entry with the handle carries its order,
`check_held` reports nothing exactly when no entry has a greater order or the
handle, and otherwise an entry with one of the two: the early break at the first
smaller order loses nothing. `N < 2^63` holds for every `std::array` the stack can
be. -/
theorem checkHeld_exact {N : ℕ} (t : ThreadMutexInfo N) (hN : N < 2 ^ 63)
    (htop : t.mutexesHeld_.top_ ≤ N) (hsorted : t.mutexesHeld_.subset.Pairwise fun p q => p.2 ≤ q.2)
    {mutex order : ℕ} (hm : mutex ≠ 0)
    (hfixed : ∀ p ∈ t.mutexesHeld_.subset, p.1 = mutex → p.2 = order) :
    (t.checkHeld mutex order = AtomicStack.invalid ↔
        ∀ p ∈ t.mutexesHeld_.subset, p.2 ≤ order ∧ p.1 ≠ mutex) ∧
      (t.checkHeld mutex order ≠ AtomicStack.invalid →
        t.checkHeld mutex order ∈ t.mutexesHeld_.subset ∧
          (order < (t.checkHeld mutex order).2 ∨ (t.checkHeld mutex order).1 = mutex)) := by
  rw [t.checkHeld_eq hN htop]
  refine ⟨?_, fun h => ?_⟩
  · simpa only [List.mem_reverse] using checkList_eq_invalid_iff hm (List.pairwise_reverse.2 hsorted)
      fun p hp => hfixed p (List.mem_reverse.1 hp)
  · rcases checkList_cases mutex order t.mutexesHeld_.subset.reverse with h' | ⟨hmem, hc⟩
    · exact absurd h' h
    · exact ⟨List.mem_reverse.1 hmem, hc.symm⟩

/-- A thread holding `A` (order 3) and then `B` (order 5): `check_held` for
handle 3 at order 4 finds `B`. -/
theorem checkHeld_exact_two :
    let t := ((ThreadMutexInfo.new 1 : ThreadMutexInfo 16).pushHeld 1 3).pushHeld 2 5
    t.checkHeld 3 4 = (2, 5) ∧ (t.checkHeld 3 4 ≠ AtomicStack.invalid →
      t.checkHeld 3 4 ∈ t.mutexesHeld_.subset ∧
        (4 < (t.checkHeld 3 4).2 ∨ (t.checkHeld 3 4).1 = 3)) :=
  ⟨by decide, (checkHeld_exact _ (by decide) (by decide) (by decide) (by decide) (by decide)).2⟩

/-! ## One operation on the held stack -/

theorem bind_eq_ok {ε α β : Type} {x : Except ε α} {f : α → Except ε β} {b : β}
    (h : (x >>= f) = .ok b) : ∃ a, x = .ok a ∧ f a = .ok b := by
  cases x with
  | error e => cases h
  | ok a => exact ⟨a, rfl, h⟩

variable {A : Attributes}

/-- The mutexes the thread holds after an operation, from those it held before. -/
def Op.held : Op A → List (ℕ × ℕ) → List (ℕ × ℕ)
  | .lock m _, L => L ++ [(m.handle, m.order_)]
  | .tryLock m _ acquired, L => if acquired then L ++ [(m.handle, m.order_)] else L
  | .unlock m, L => eraseTop m.handle L
  | .cvWaitBegin m _, L => eraseTop m.handle L
  | .cvWaitEnd m, L => L ++ [(m.handle, m.order_)]
  | _, L => L

/-- The operation releases only a mutex the thread holds. -/
def Op.ReleasesHeld : Op A → List (ℕ × ℕ) → Prop
  | .unlock m, L => m.handle ∈ L.map Prod.fst
  | .cvWaitBegin m _, L => m.handle ∈ L.map Prod.fst
  | _, _ => True

instance Op.ReleasesHeld.decidable :
    (op : Op A) → (L : List (ℕ × ℕ)) → Decidable (op.ReleasesHeld L)
  | .unlock m, L | .cvWaitBegin m _, L => inferInstanceAs (Decidable (m.handle ∈ L.map Prod.fst))
  | .lock _ _, _ | .tryLock _ _ _, _ | .cvWaitEnd _, _ | .joinWaitBegin _, _ | .joinWaitEnd, _
  | .queueWaitBegin _, _ | .queueWaitEnd, _ => inferInstanceAs (Decidable True)

/-- The calls an operation makes on the thread's `atomic_stack`. -/
def Op.onStack : Op A → AtomicStack ℕ ℕ A.mutexStackDepth_ → AtomicStack ℕ ℕ A.mutexStackDepth_
  | .lock m _, s => s.push m.handle m.order_
  | .tryLock m _ acquired, s => if acquired then s.push m.handle m.order_ else s
  | .unlock m, s => (s.remove m.handle).2
  | .cvWaitBegin m _, s => (s.remove m.handle).2
  | .cvWaitEnd m, s => s.push m.handle m.order_
  | _, s => s

namespace Ctx

variable {c c' : Ctx A} {m : Mutex A}

@[simp] theorem lockScopedStat_stack : (c.lockScopedStat m).info.mutexesHeld_ = c.info.mutexesHeld_ := by
  unfold lockScopedStat; split <;> rfl

@[simp] theorem lockScopedStatEnd_stack : c.lockScopedStatEnd.info.mutexesHeld_ = c.info.mutexesHeld_ := by
  unfold lockScopedStatEnd; split <;> rfl

theorem postLock_stack (hA : A.mutexTrackingEnabled_ = true) :
    (c.postLock m).info.mutexesHeld_ = c.info.mutexesHeld_.push m.handle m.order_ := by
  simp [postLock, hA, modifyStat]

theorem cvWaitEnd_stack (hA : A.mutexTrackingEnabled_ = true) :
    (c.cvWaitEnd m).info.mutexesHeld_ = c.info.mutexesHeld_.push m.handle m.order_ := by
  simp [cvWaitEnd, hA, modifyStat]

theorem preUnlock_stack (hA : A.mutexTrackingEnabled_ = true) (h : c.preUnlock m = .ok c') :
    c'.info.mutexesHeld_ = (c.info.mutexesHeld_.remove m.handle).2 := by
  simp only [preUnlock, hA, if_true] at h
  split at h
  · cases h
  · cases h; rfl

theorem cvWaitBegin_stack (hA : A.mutexTrackingEnabled_ = true) {n : ℤ}
    (h : c.cvWaitBegin m n = .ok c') :
    c'.info.mutexesHeld_ = (c.info.mutexesHeld_.remove m.handle).2 := by
  simp only [cvWaitBegin, hA, if_true] at h
  split at h
  · cases h
  · cases h; rfl

/-- **What an operation does to the held stack**: its `push` and `remove` calls. -/
theorem apply_stack (hA : A.mutexTrackingEnabled_ = true) {op : Op A} (h : c.apply op = .ok c') :
    c'.info.mutexesHeld_ = op.onStack c.info.mutexesHeld_ := by
  cases op with
  | lock m u =>
    obtain ⟨-, -, h⟩ := bind_eq_ok h
    cases h; split <;> simp [postLock_stack hA, Op.onStack]
  | tryLock m t a =>
    obtain ⟨-, -, h⟩ := bind_eq_ok h
    cases h; split <;> split <;> simp_all [postLock_stack hA, Op.onStack]
  | unlock m => exact preUnlock_stack hA h
  | cvWaitBegin m n => exact cvWaitBegin_stack hA h
  | cvWaitEnd m => cases h; exact cvWaitEnd_stack hA
  | joinWaitBegin _ | joinWaitEnd | queueWaitBegin _ | queueWaitEnd => cases h; rfl

end Ctx

/-- The stack calls of an operation keep it tracking the held mutexes. -/
theorem Tracks.onStack {L : List (ℕ × ℕ)} {s : AtomicStack ℕ ℕ A.mutexStackDepth_}
    (h : Tracks L s) (hN : 0 < A.mutexStackDepth_) (op : Op A) (hr : op.ReleasesHeld L) :
    Tracks (op.held L) (op.onStack s) := by
  cases op with
  | lock m _ => exact h.push hN _ _
  | tryLock m _ a => cases a <;> simp only [Op.held, Op.onStack, if_true] <;> first | exact h | exact h.push hN _ _
  | unlock m => exact h.remove hr
  | cvWaitBegin m _ => exact h.remove hr
  | cvWaitEnd m => exact h.push hN _ _
  | joinWaitBegin _ | joinWaitEnd | queueWaitBegin _ | queueWaitEnd => exact h

/-! ## Runs of one thread -/

/-- **A thread's context reached by complete operations** from a fresh
descriptor, `L` listing the mutexes it holds in the order it took them; only held
mutexes are released. -/
inductive Reach (A : Attributes) : Ctx A → List (ℕ × ℕ) → Prop
  | init (stats : ℕ → MutexStat) (tid : ℤ) : Reach A ⟨stats, .new tid⟩ []
  | step {c c' : Ctx A} {L : List (ℕ × ℕ)} (op : Op A) :
      Reach A c L → op.ReleasesHeld L → c.apply op = .ok c' → Reach A c' (op.held L)

/-- The mutexes held after a sequence of operations. -/
def Op.heldRun (L : List (ℕ × ℕ)) (ops : List (Op A)) : List (ℕ × ℕ) :=
  ops.foldl (fun L op => op.held L) L

/-- Every operation of a sequence releases only held mutexes. -/
def Op.RunReleasesHeld : List (ℕ × ℕ) → List (Op A) → Prop
  | _, [] => True
  | L, op :: ops => op.ReleasesHeld L ∧ Op.RunReleasesHeld (op.held L) ops

instance Op.RunReleasesHeld.decidable :
    (L : List (ℕ × ℕ)) → (ops : List (Op A)) → Decidable (Op.RunReleasesHeld L ops)
  | _, [] => inferInstanceAs (Decidable True)
  | L, op :: ops => @instDecidableAnd _ _ _ (Op.RunReleasesHeld.decidable (op.held L) ops)

/-- A run of operations from a reached context reaches its end. -/
theorem Reach.run : ∀ (ops : List (Op A)) {c c' : Ctx A} {L L' : List (ℕ × ℕ)},
    Reach A c L → Op.RunReleasesHeld L ops → c.run ops = .ok c' → Op.heldRun L ops = L' →
      Reach A c' L'
  | [], _, _, _, _, h, _, hrun, hL => by cases hrun; cases hL; exact h
  | op :: ops, _, _, _, _, h, ⟨hr, hrs⟩, hrun, hL => by
    obtain ⟨c₁, h₁, h₂⟩ := bind_eq_ok hrun
    exact Reach.run ops (h.step op hr h₁) hrs h₂ hL

/-- **The thread's `atomic_stack` tracks the mutexes it holds**, at any depth. -/
theorem Reach.tracks (hA : A.mutexTrackingEnabled_ = true) (hN : 0 < A.mutexStackDepth_)
    {c : Ctx A} {L : List (ℕ × ℕ)} (h : Reach A c L) : Tracks L c.info.mutexesHeld_ := by
  induction h with
  | init => exact tracks_empty
  | step op _ hr ha ih => rw [Ctx.apply_stack hA ha]; exact ih.onStack hN op hr

@[simp] theorem Ctx.modifyStat_info (c : Ctx A) (o : ℕ) (f : MutexStat → MutexStat) :
    (c.modifyStat o f).info = c.info := rfl

section Checks

variable (hA : A.mutexTrackingEnabled_ = true) (hN : 0 < A.mutexStackDepth_)
  (hN' : A.mutexStackDepth_ < 2 ^ 63)
include hA hN hN'

omit hN' in
/-- Releasing a held mutex: `remove_held` returns `true`, so neither `pre_unlock`
nor the condition-variable wait entry aborts. -/
theorem Reach.release_ok {c : Ctx A} {L : List (ℕ × ℕ)} (h : Reach A c L) {m : Mutex A}
    (hm : m.handle ∈ L.map Prod.fst) :
    (c.info.removeHeld m.handle).1 = true ∧ (∃ c', c.preUnlock m = .ok c') ∧
      ∀ n, ∃ c', c.cvWaitBegin m n = .ok c' := by
  have hr := ((h.tracks hA hN).remove_cases hm).1
  refine ⟨hr, ?_, fun n => ?_⟩
  · simp only [Ctx.preUnlock, hA, if_true, Ctx.modifyStat_info, ThreadMutexInfo.removeHeld_fst, hr,
      Bool.not_true, Bool.and_false]
    exact ⟨_, rfl⟩
  · simp only [Ctx.cvWaitBegin, hA, if_true, Ctx.modifyStat_info,
      ThreadMutexInfo.removeHeldForCv_fst, hr, Bool.not_true, Bool.and_false]
    exact ⟨_, rfl⟩

/-- `check_held` reports only a held mutex: the one acquired, or one of greater
order. -/
theorem Reach.checkHeld_conflict {c : Ctx A} {L : List (ℕ × ℕ)} (h : Reach A c L) (m : Mutex A)
    (hp : (c.info.checkHeld m.handle m.order_).1 ≠ 0) :
    c.info.checkHeld m.handle m.order_ ∈ L ∧
      ((c.info.checkHeld m.handle m.order_).1 = m.handle ∨
        m.order_ < (c.info.checkHeld m.handle m.order_).2) := by
  have ht := h.tracks hA hN
  rw [ThreadMutexInfo.checkHeld_eq _ hN' ht.top_le] at hp ⊢
  rcases checkList_cases m.handle m.order_ c.info.mutexesHeld_.subset.reverse with he | ⟨hmem, hc⟩
  · rw [he] at hp; exact absurd rfl hp
  · exact ⟨ht.subset_sublist.subset (List.mem_reverse.1 hmem), hc⟩

/-- Acquiring a mutex that is not held, with no held mutex of greater order,
passes `pre_lock`. -/
theorem Reach.preLock_ok {c : Ctx A} {L : List (ℕ × ℕ)} (h : Reach A c L) (m : Mutex A)
    (hm : m.handle ∉ L.map Prod.fst) (hle : ∀ p ∈ L, p.2 ≤ m.order_) : c.preLock m = .ok () := by
  have ht := h.tracks hA hN
  have hinv : c.info.checkHeld m.handle m.order_ = AtomicStack.invalid := by
    rw [ThreadMutexInfo.checkHeld_eq _ hN' ht.top_le]
    refine checkList_eq_invalid fun p hp => ?_
    have hpL := ht.subset_sublist.subset (List.mem_reverse.1 hp)
    exact ⟨hle p hpL, fun he => hm (List.mem_map.2 ⟨p, hpL, he⟩)⟩
  unfold Ctx.preLock
  split
  · rfl
  · rw [hinv]; exact if_pos rfl

end Checks

/-- **No false aborts.** Along any sequence of one thread's operations on
`audio_utils::mutex`es that releases only held mutexes, at any depth: releasing a
held mutex finds it (`remove_held` returns `true`), so `pre_unlock` and the
condition-variable wait entry never abort; a pair that `check_held` reports while
acquiring `m` is a held mutex that is `m` itself or of greater order; and
acquiring without recursion in non-decreasing order passes `pre_lock`. -/
theorem no_false_aborts {c : Ctx audioMutexAttributes} {L : List (ℕ × ℕ)}
    (h : Reach audioMutexAttributes c L) :
    (∀ m : Mutex audioMutexAttributes, m.handle ∈ L.map Prod.fst →
      (c.info.removeHeld m.handle).1 = true ∧ (∃ c', c.preUnlock m = .ok c') ∧
        ∀ n, ∃ c', c.cvWaitBegin m n = .ok c') ∧
    (∀ m : Mutex audioMutexAttributes, (c.info.checkHeld m.handle m.order_).1 ≠ 0 →
      c.info.checkHeld m.handle m.order_ ∈ L ∧
        ((c.info.checkHeld m.handle m.order_).1 = m.handle ∨
          m.order_ < (c.info.checkHeld m.handle m.order_).2)) ∧
    (∀ m : Mutex audioMutexAttributes, m.handle ∉ L.map Prod.fst → (∀ p ∈ L, p.2 ≤ m.order_) →
      c.preLock m = .ok ()) :=
  ⟨fun _ hm => h.release_ok rfl (by decide) hm,
    h.checkHeld_conflict rfl (by decide) (by decide),
    h.preLock_ok rfl (by decide) (by decide)⟩

/-! ## Runs on three mutexes -/

/-- A mutex of order 3 (`EffectBase_PolicyMutex`) at address 1. -/
def mutexA : Mutex audioMutexAttributes := ⟨1, 3, by decide, by decide⟩

/-- A mutex of order 5 (`CommandThread_Mutex`) at address 2. -/
def mutexB : Mutex audioMutexAttributes := ⟨2, 5, by decide, by decide⟩

/-- A mutex of order 4 (`AudioPolicyService_Mutex`) at address 3. -/
def mutexC : Mutex audioMutexAttributes := ⟨3, 4, by decide, by decide⟩

/-- A fresh thread, tid 1. -/
def ctx₀ : Ctx audioMutexAttributes := ⟨fun _ => {}, .new 1⟩

/-- After locking `A` and `B`, any mutex that is not held and of order at least
5 passes `pre_lock`. -/
theorem no_false_aborts_nested :
    ∃ c, Reach audioMutexAttributes c [(1, 3), (2, 5)] ∧
      ∀ m : Mutex audioMutexAttributes, m.handle ∉ [(1, 3), (2, 5)].map Prod.fst →
        (∀ p ∈ [(1, 3), (2, 5)], p.2 ≤ m.order_) → c.preLock m = .ok () :=
  (⟨_, Reach.run [.lock mutexA true, .lock mutexB true] (Reach.init (fun _ => {}) 1) (by decide)
      rfl (by decide)⟩ : ∃ c, Reach audioMutexAttributes c [(1, 3), (2, 5)]).elim
    fun _ h => ⟨_, h, (no_false_aborts h).2.2⟩

/-- **A condition-variable wait defeats the order check.** Lock `A` (order 3),
lock `B` (order 5), wait on a condition variable through `A`'s `unique_lock`:
the exit pushes `A` back above `B` with no check. The run releases only held
mutexes and never holds more than two; the thread ends holding `B` and `A`, and
locking `C` (order 4) passes `pre_lock`, since `check_held` stops at `A`. -/
theorem cvWait_breaks_orderCheck :
    Op.RunReleasesHeld []
        [.lock mutexA true, .lock mutexB true, .cvWaitBegin mutexA 2, .cvWaitEnd mutexA] ∧
      (∀ k ≤ 4, (Op.heldRun [] ([.lock mutexA true, .lock mutexB true, .cvWaitBegin mutexA 2,
        .cvWaitEnd mutexA].take k)).length ≤ 2) ∧
      Op.heldRun [] [.lock mutexA true, .lock mutexB true, .cvWaitBegin mutexA 2, .cvWaitEnd mutexA] =
        [(2, 5), (1, 3)] ∧
      (ctx₀.run [.lock mutexA true, .lock mutexB true, .cvWaitBegin mutexA 2, .cvWaitEnd mutexA] >>=
        fun c => c.preLock mutexC) = .ok () :=
  ⟨by decide, by decide, by decide, rfl⟩

end AudioUtils
