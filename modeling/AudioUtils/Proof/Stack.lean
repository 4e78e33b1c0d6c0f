import AudioUtils.Spec.AtomicStack

/-!
# The atomic stack refines an unbounded stack

`Tracks L s`: the atomic stack `s` follows the unbounded stack `L` of
(item, payload) pairs, where `push` appends and `remove` erases the topmost pair
with the item. `true_top_` is `|L|` and the tracked subset stack is a
subsequence of `L`.

* `Tracks.push`, `Tracks.remove_cases`: one call keeps the relation, and a
  remove of an item on `L` returns `true`.
* `run_tracks`: the same along every sequence of calls.
* `run_exact`: if the depth of `L` never exceeds `N`, nothing is dropped and
  the tracked stack is `L` itself.
-/

namespace AudioUtils

variable {Item Payload : Type} [Inhabited Item] [Inhabited Payload] [DecidableEq Item] {N : ℕ}

/-! ## The unbounded stack -/

/-- One call on the unbounded stack. -/
def AtomicStack.Call.apply (L : List (Item × Payload)) : AtomicStack.Call Item Payload →
    List (Item × Payload)
  | .push item payload => L ++ [(item, payload)]
  | .remove item => eraseTop item L

/-- A sequence of calls on the unbounded stack. -/
def listRun (L : List (Item × Payload)) (cs : List (AtomicStack.Call Item Payload)) :
    List (Item × Payload) :=
  cs.foldl AtomicStack.Call.apply L

/-- Every removed item is on the unbounded stack when it is removed. -/
def RemovesHeld : List (Item × Payload) → List (AtomicStack.Call Item Payload) → Prop
  | _, [] => True
  | L, .push item payload :: cs => RemovesHeld (L ++ [(item, payload)]) cs
  | L, .remove item :: cs => item ∈ L.map Prod.fst ∧ RemovesHeld (eraseTop item L) cs

/-- `RemovesHeld` is decided by running the calls on the unbounded stack. -/
instance RemovesHeld.decidable :
    (L : List (Item × Payload)) → (cs : List (AtomicStack.Call Item Payload)) →
      Decidable (RemovesHeld L cs)
  | _, [] => inferInstanceAs (Decidable True)
  | L, .push item payload :: cs => RemovesHeld.decidable (L ++ [(item, payload)]) cs
  | L, .remove item :: cs =>
    @instDecidableAnd _ _ _ (RemovesHeld.decidable (eraseTop item L) cs)

omit [Inhabited Item] [Inhabited Payload] in
theorem eraseTop_sublist {S L : List (Item × Payload)} (x : Item) (h : S.Sublist L) :
    (eraseTop x S).Sublist (eraseTop x L) := by
  unfold eraseTop
  exact (h.reverse.eraseP).reverse

omit [Inhabited Item] [Inhabited Payload] in
theorem eraseTop_of_not_mem {S : List (Item × Payload)} {x : Item}
    (h : x ∉ S.map Prod.fst) : eraseTop x S = S := by
  unfold eraseTop
  rw [List.eraseP_of_forall_not, List.reverse_reverse]
  intro p hp hpx
  exact h (List.mem_map.2 ⟨p, List.mem_reverse.1 hp, by simpa using hpx⟩)

omit [Inhabited Item] [Inhabited Payload] in
theorem length_eraseTop {L : List (Item × Payload)} {x : Item} (h : x ∈ L.map Prod.fst) :
    (eraseTop x L).length = L.length - 1 := by
  obtain ⟨p, hp, rfl⟩ := List.mem_map.1 h
  unfold eraseTop
  rw [List.length_reverse, List.length_eraseP_of_mem (List.mem_reverse.2 hp) (by simp),
    List.length_reverse]

omit [Inhabited Item] [Inhabited Payload] in
/-- Erasing the last slot that holds the item is `eraseTop`. -/
theorem eraseIdx_eq_eraseTop {S : List (Item × Payload)} {x : Item} {i : ℕ}
    (hi : i < S.length) (hx : S[i].1 = x) (hlast : ∀ j (hj : j < S.length), i < j → S[j].1 ≠ x) :
    S.eraseIdx i = eraseTop x S := by
  have hS : S = S.take i ++ S[i] :: S.drop (i + 1) := by
    rw [← List.drop_eq_getElem_cons, List.take_append_drop]
  have hd : ∀ p ∈ (S.drop (i + 1)).reverse, ¬ decide (p.1 = x) := by
    intro p hp
    obtain ⟨j, hj, rfl⟩ := List.getElem_of_mem (List.mem_reverse.1 hp)
    simpa [List.getElem_drop] using hlast (i + 1 + j) (by simp at hj; omega) (by omega)
  rw [List.eraseIdx_eq_take_drop_succ, eraseTop, hS]
  simp only [List.reverse_append, List.reverse_cons, List.append_assoc, List.singleton_append]
  rw [List.eraseP_append_right _ hd, List.eraseP_cons_of_pos (by simpa using hx)]
  simp [List.take_take, List.drop_drop]

/-! ## The model's pieces -/

namespace AtomicStack

omit [DecidableEq Item] in
theorem subset_eq_take (s : AtomicStack Item Payload N) (h : s.top_ ≤ N) :
    s.subset = s.pairs_.take s.top_ := by
  apply List.ext_getElem?
  intro j
  by_cases hj : j < s.top_
  · have : j < s.pairs_.length := by rw [s.pairs_length]; omega
    simp [subset, size, bottom, hj, List.getElem?_take, this]
  · simp [subset, size, hj, List.getElem?_take]; omega

omit [DecidableEq Item] in
theorem length_subset (s : AtomicStack Item Payload N) : s.subset.length = s.top_ := by
  simp [subset, size]

omit [DecidableEq Item] in
theorem getElem_subset (s : AtomicStack Item Payload N) (j : ℕ) (hj : j < s.subset.length) :
    s.subset[j] = s.pairs_.getD j default := by
  rw [length_subset] at hj
  simp [subset, bottom, hj]

omit [DecidableEq Item] in
theorem mem_subset_map (s : AtomicStack Item Payload N) (x : Item) :
    x ∈ s.subset.map Prod.fst ↔ ∃ j < s.top_, (s.pairs_.getD j default).1 = x := by
  simp only [subset, size, List.map_map, List.mem_map, List.mem_range, Function.comp]
  exact exists_congr fun j => and_congr_right fun hj => by rw [bottom, if_pos hj]

theorem scan_some {pairs : List (Item × Payload)} {item : Item} :
    ∀ {k i : ℕ}, scan pairs item k = some i →
      i < k ∧ (pairs.getD i default).1 = item ∧
        ∀ j, i < j → j < k → (pairs.getD j default).1 ≠ item := by
  intro k
  induction k with
  | zero => intro i h; simp [scan] at h
  | succ k ih =>
    intro i h
    simp only [scan] at h
    split at h
    · rename_i hk
      cases h
      exact ⟨by omega, hk.symm, fun j h1 h2 => by omega⟩
    · rename_i hk
      obtain ⟨h1, h2, h3⟩ := ih h
      refine ⟨by omega, h2, fun j hj1 hj2 => ?_⟩
      rcases Nat.lt_succ_iff_lt_or_eq.1 hj2 with hj | rfl
      · exact h3 j hj1 hj
      · exact fun h => hk h.symm

theorem scan_none {pairs : List (Item × Payload)} {item : Item} :
    ∀ {k : ℕ}, scan pairs item k = none → ∀ j < k, (pairs.getD j default).1 ≠ item := by
  intro k
  induction k with
  | zero => intro _ j hj; omega
  | succ k ih =>
    intro h j hj
    simp only [scan] at h
    split at h
    · cases h
    · rename_i hk
      rcases Nat.lt_succ_iff_lt_or_eq.1 hj with hj | rfl
      · exact ih h j hj
      · exact fun h => hk h.symm

omit [DecidableEq Item] in
theorem getD_shift (pairs : List (Item × Payload)) (i k j : ℕ) :
    (shift pairs i k).getD j default =
      if i ≤ j ∧ j < i + k then pairs.getD (j + 1) default else pairs.getD j default := by
  induction k generalizing pairs i with
  | zero => rw [shift, if_neg (by omega)]
  | succ k ih =>
    rw [shift, ih]
    rcases lt_trichotomy j i with h | rfl | h
    · rw [if_neg (by omega), if_neg (by omega)]
      simp [List.getElem?_set_ne h.ne']
    · rw [if_neg (by omega), if_pos (by omega)]
      by_cases hl : j < pairs.length
      · simp [List.getElem?_set, hl]
      · simp [List.getElem?_set, hl, List.getElem?_eq_none (show pairs.length ≤ j + 1 by omega)]
    · by_cases hk : j < i + 1 + k
      · rw [if_pos (by omega), if_pos (by omega)]
        simp [List.getElem?_set_ne (show i ≠ j + 1 by omega)]
      · rw [if_neg (by omega), if_neg (by omega)]
        simp [List.getElem?_set_ne (show i ≠ j by omega)]

omit [Inhabited Item] [Inhabited Payload] [DecidableEq Item] in
theorem take_set_succ (pairs : List (Item × Payload)) {i : ℕ} (hi : i < pairs.length)
    (q : Item × Payload) : (pairs.set i q).take (i + 1) = pairs.take i ++ [q] := by
  rw [List.set_eq_take_append_cons_drop, if_pos hi, List.take_append_eq_append_take]
  simp [show i ≤ pairs.length by omega]

omit [DecidableEq Item] in
/-- Below the capacity, `push` puts the pair on top of the tracked stack. -/
theorem subset_push_of_lt (s : AtomicStack Item Payload N) (h : s.top_ < N) (x : Item) (p : Payload) :
    (s.push x p).subset = s.subset ++ [(x, p)] := by
  have hlen := s.pairs_length
  rw [subset_eq_take _ (by simp only [push]; split <;> omega), subset_eq_take _ h.le]
  simp only [push, if_neg (not_le.2 h)]
  exact take_set_succ _ (by omega) _

omit [DecidableEq Item] in
/-- On a full stack, `push` overwrites slot `N - 1`. -/
theorem subset_push_of_full (s : AtomicStack Item Payload N) (hN : 0 < N) (h : N ≤ s.top_)
    (htop : s.top_ ≤ N) (x : Item) (p : Payload) : (s.push x p).subset = s.subset.take (N - 1) ++ [(x, p)] := by
  have hlen := s.pairs_length
  rw [subset_eq_take _ (by simp only [push]; split <;> omega), subset_eq_take _ htop, List.take_take,
    Nat.min_eq_left (by omega)]
  simp only [push, if_pos h, Nat.add_zero]
  rw [show s.top_ = N - 1 + 1 by omega]
  exact take_set_succ _ (by omega) _

omit [DecidableEq Item] in
/-- At any depth, the pair pushed last is on top of the tracked stack. -/
theorem subset_push_top (s : AtomicStack Item Payload N) (hN : 0 < N) (htop : s.top_ ≤ N)
    (x : Item) (p : Payload) : ∃ S, (s.push x p).subset = S ++ [(x, p)] := by
  rcases Nat.lt_or_ge s.top_ N with h | h
  · exact ⟨_, subset_push_of_lt s h x p⟩
  · exact ⟨_, subset_push_of_full s hN h htop x p⟩

omit [DecidableEq Item] in
/-- The shift of `remove` takes slot `i` out of the first `t` slots. -/
theorem take_shift (pairs : List (Item × Payload)) {i t : ℕ} (hi : i < t)
    (ht : t ≤ pairs.length) :
    (shift pairs i (t - 1 - i)).take (t - 1) = (pairs.take t).eraseIdx i := by
  apply List.ext_getElem?
  intro j
  have hget : ∀ (l : List (Item × Payload)) (j : ℕ), j < l.length → l[j]? = some (l.getD j default) :=
    fun l j hj => by simp [hj]
  rw [List.getElem?_take, List.getElem?_eraseIdx]
  by_cases hj : j < t - 1
  · rw [if_pos hj, hget _ _ (by simp; omega), getD_shift]
    by_cases hji : j < i
    · rw [if_neg (by omega), if_pos hji, List.getElem?_take, if_pos (by omega), hget _ _ (by omega)]
    · rw [if_pos (by omega), if_neg hji, List.getElem?_take, if_pos (by omega),
        hget _ _ (by omega)]
  · rw [if_neg hj, if_neg (by omega), List.getElem?_take, if_neg (by omega)]

end AtomicStack

/-! ## The refinement -/

/-- **The atomic stack tracks the unbounded stack `L`.** -/
structure Tracks (L : List (Item × Payload)) (s : AtomicStack Item Payload N) : Prop where
  top_le : s.top_ ≤ N
  trueTop_eq : s.trueTop_ = L.length
  subset_sublist : s.subset.Sublist L

omit [DecidableEq Item] in
theorem tracks_empty : Tracks [] (AtomicStack.empty : AtomicStack Item Payload N) :=
  ⟨Nat.zero_le _, rfl, by simp [AtomicStack.subset, AtomicStack.size, AtomicStack.empty]⟩

omit [DecidableEq Item] in
theorem Tracks.top_le_trueTop {L : List (Item × Payload)} {s : AtomicStack Item Payload N}
    (h : Tracks L s) : s.top_ ≤ s.trueTop_ := by
  rw [h.trueTop_eq, ← s.length_subset]; exact h.subset_sublist.length_le

omit [DecidableEq Item] in
/-- With nothing dropped, the tracked stack is the unbounded one. -/
theorem Tracks.subset_eq {L : List (Item × Payload)} {s : AtomicStack Item Payload N}
    (h : Tracks L s) (he : s.trueTop_ = s.top_) : s.subset = L :=
  h.subset_sublist.eq_of_length (by rw [s.length_subset, ← he, h.trueTop_eq])

omit [DecidableEq Item] in
/-- **`push` keeps the relation**, also when it overwrites the top slot. -/
theorem Tracks.push {L : List (Item × Payload)} {s : AtomicStack Item Payload N}
    (h : Tracks L s) (hN : 0 < N) (x : Item) (p : Payload) :
    Tracks (L ++ [(x, p)]) (s.push x p) := by
  have hlen := s.pairs_length
  have htop := h.top_le
  refine ⟨?_, by simp [AtomicStack.push, h.trueTop_eq], ?_⟩
  · simp only [AtomicStack.push]; split <;> omega
  have hset : ∀ i, i < N → (s.pairs_.set i (x, p)).take (i + 1) = s.pairs_.take i ++ [(x, p)] :=
    fun i hi => AtomicStack.take_set_succ _ (by omega) _
  have hsub := h.subset_sublist
  rw [AtomicStack.subset_eq_take _ (by simp only [AtomicStack.push]; split <;> omega)]
  rw [AtomicStack.subset_eq_take _ htop] at hsub
  simp only [AtomicStack.push]
  split
  · rw [Nat.add_zero, show s.top_ = N - 1 + 1 by omega, hset _ (by omega)]
    exact ((List.take_sublist_take_left _ (by omega)).trans hsub).append (List.Sublist.refl _)
  · rw [hset _ (by omega)]
    exact hsub.append (List.Sublist.refl _)

/-- **What `remove` does to a tracking stack**, for an item on `L`: it returns
`true` and decrements `true_top_`; it shifts the topmost tracked pair with the
item out when there is one, and leaves the tracked stack alone when not. -/
theorem Tracks.remove_cases {L : List (Item × Payload)} {s : AtomicStack Item Payload N}
    (h : Tracks L s) {x : Item} (hx : x ∈ L.map Prod.fst) :
    (s.remove x).1 = true ∧ (s.remove x).2.trueTop_ = s.trueTop_ - 1 ∧
      ((x ∈ s.subset.map Prod.fst ∧ (s.remove x).2.top_ = s.top_ - 1 ∧
          (s.remove x).2.subset = eraseTop x s.subset) ∨
        (x ∉ s.subset.map Prod.fst ∧ (s.remove x).2.top_ = s.top_ ∧
          (s.remove x).2.subset = s.subset)) := by
  have htop := h.top_le
  have hlen := s.pairs_length
  have hL : s.trueTop_ ≠ 0 := by
    rw [h.trueTop_eq]; intro h0; simp [List.length_eq_zero.1 h0] at hx
  unfold AtomicStack.remove
  rw [if_neg hL]
  split
  · rename_i i hi
    obtain ⟨hik, hix, hlast⟩ := AtomicStack.scan_some hi
    refine ⟨rfl, rfl, Or.inl ⟨(s.mem_subset_map x).2 ⟨i, hik, hix⟩, rfl, ?_⟩⟩
    rw [AtomicStack.subset_eq_take _ (by simp only; omega), AtomicStack.subset_eq_take _ htop]
    simp only
    rw [AtomicStack.take_shift _ hik (by omega)]
    apply eraseIdx_eq_eraseTop (by simp; omega)
    · simpa [List.getElem?_eq_getElem (show i < s.pairs_.length by omega)] using hix
    · intro j hj hij
      have hj' : j < s.top_ := by simp at hj; omega
      simpa [List.getElem?_eq_getElem (show j < s.pairs_.length by omega)] using hlast j hij hj'
  · rename_i hn
    have hnm : x ∉ s.subset.map Prod.fst := by
      rw [s.mem_subset_map]
      rintro ⟨j, hj, hjx⟩
      exact AtomicStack.scan_none hn j hj hjx
    have hlt : s.top_ < s.trueTop_ := by
      rw [← s.length_subset, h.trueTop_eq]
      refine lt_of_le_of_ne h.subset_sublist.length_le fun heq => hnm ?_
      rwa [h.subset_sublist.eq_of_length heq]
    rw [if_pos (by omega)]
    exact ⟨rfl, rfl, Or.inr ⟨hnm, rfl, rfl⟩⟩

/-- **`remove` of an item on `L` keeps the relation.** -/
theorem Tracks.remove {L : List (Item × Payload)} {s : AtomicStack Item Payload N}
    (h : Tracks L s) {x : Item} (hx : x ∈ L.map Prod.fst) :
    Tracks (eraseTop x L) (s.remove x).2 := by
  obtain ⟨-, htt, hc⟩ := h.remove_cases hx
  refine ⟨?_, by rw [htt, h.trueTop_eq, length_eraseTop hx], ?_⟩
  · rcases hc with ⟨-, ht, -⟩ | ⟨-, ht, -⟩ <;> rw [ht] <;> have := h.top_le <;> omega
  · rcases hc with ⟨-, -, hs⟩ | ⟨hnm, -, hs⟩ <;> rw [hs]
    · exact eraseTop_sublist x h.subset_sublist
    · rw [← eraseTop_of_not_mem hnm]; exact eraseTop_sublist x h.subset_sublist

omit [DecidableEq Item] in
/-- `push` below the capacity keeps a stack that dropped nothing exact. -/
theorem Tracks.push_exact {L : List (Item × Payload)} {s : AtomicStack Item Payload N}
    (h : Tracks L s) (he : s.top_ = s.trueTop_) (hd : L.length + 1 ≤ N) (x : Item) (p : Payload) :
    (s.push x p).top_ = (s.push x p).trueTop_ := by
  have := h.trueTop_eq
  simp only [AtomicStack.push]
  rw [if_neg (by omega)]
  omega

/-- `remove` keeps a stack that dropped nothing exact: the pair is always found. -/
theorem Tracks.remove_exact {L : List (Item × Payload)} {s : AtomicStack Item Payload N}
    (h : Tracks L s) (he : s.top_ = s.trueTop_) {x : Item} (hx : x ∈ L.map Prod.fst) :
    (s.remove x).2.top_ = (s.remove x).2.trueTop_ := by
  obtain ⟨-, htt, ⟨-, ht, -⟩ | ⟨hnm, -, -⟩⟩ := h.remove_cases hx
  · rw [ht, htt, he]
  · rw [h.subset_eq he.symm] at hnm; exact absurd hx hnm

/-- **Every sequence of calls keeps the relation**, and every remove in it returns
`true`. -/
theorem run_tracks (hN : 0 < N) :
    ∀ (cs : List (AtomicStack.Call Item Payload)) {L : List (Item × Payload)}
      {s : AtomicStack Item Payload N}, Tracks L s → RemovesHeld L cs →
      (∀ b ∈ (s.run cs).2, b = true) ∧ Tracks (listRun L cs) (s.run cs).1
  | [], _, _, h, _ => ⟨by simp [AtomicStack.run], h⟩
  | .push x p :: cs, _, _, h, hr => run_tracks hN cs (h.push hN x p) hr
  | .remove x :: cs, _, _, h, ⟨hx, hr⟩ =>
    have ih := run_tracks hN cs (h.remove hx) hr
    ⟨by simpa [AtomicStack.run, (h.remove_cases hx).1] using ih.1, ih.2⟩

/-- **A run whose depth never exceeds `N` drops nothing.** -/
theorem run_exact (hN : 0 < N) :
    ∀ (cs : List (AtomicStack.Call Item Payload)) {L : List (Item × Payload)}
      {s : AtomicStack Item Payload N}, Tracks L s → s.top_ = s.trueTop_ → RemovesHeld L cs →
      (∀ k ≤ cs.length, (listRun L (cs.take k)).length ≤ N) →
      (s.run cs).1.top_ = (s.run cs).1.trueTop_
  | [], _, _, _, he, _, _ => he
  | .push x p :: cs, L, _, h, he, hr, hd =>
    run_exact hN cs (h.push hN x p) (h.push_exact he (by simpa [listRun, AtomicStack.Call.apply] using hd 1 (by simp)) x p)
      hr fun k hk => by simpa [listRun] using hd (k + 1) (by simp; omega)
  | .remove x :: cs, L, _, h, he, ⟨hx, hr⟩, hd =>
    run_exact hN cs (h.remove hx) (h.remove_exact he hx) hr
      fun k hk => by simpa [listRun] using hd (k + 1) (by simp; omega)

/-- **`atomic_stack` refines the unbounded stack.** Along any sequence of pushes
and of removes of items on the unbounded stack `L`, from the empty stack: every
remove returns `true`; `true_size()` is `|L|`, `size()` is at most `N` and at most
`true_size()`, and `bottom(0), …, bottom(size() - 1)` is a subsequence of `L`
(`Tracks`); that subsequence is `L` itself when `true_size() = size()`, and in
particular when the depth of `L` never exceeded `N`. -/
theorem atomicStack_refines (hN : 0 < N) (cs : List (AtomicStack.Call Item Payload))
    (hcs : RemovesHeld [] cs) :
    (∀ b ∈ ((AtomicStack.empty : AtomicStack Item Payload N).run cs).2, b = true) ∧
      Tracks (listRun [] cs) ((AtomicStack.empty : AtomicStack Item Payload N).run cs).1 ∧
      ((AtomicStack.empty : AtomicStack Item Payload N).run cs).1.size ≤
        ((AtomicStack.empty : AtomicStack Item Payload N).run cs).1.trueSize ∧
      (((AtomicStack.empty : AtomicStack Item Payload N).run cs).1.trueSize =
          ((AtomicStack.empty : AtomicStack Item Payload N).run cs).1.size →
        ((AtomicStack.empty : AtomicStack Item Payload N).run cs).1.subset = listRun [] cs) ∧
      ((∀ k ≤ cs.length, (listRun [] (cs.take k)).length ≤ N) →
        ((AtomicStack.empty : AtomicStack Item Payload N).run cs).1.subset = listRun [] cs) := by
  obtain ⟨hb, ht⟩ := run_tracks hN cs tracks_empty hcs
  exact ⟨hb, ht, ht.top_le_trueTop, ht.subset_eq,
    fun hd => ht.subset_eq (run_exact hN cs tracks_empty rfl hcs hd).symm⟩

/-- Two slots and three pushes, so the third overwrites the second; then the
overwritten pair is removed (accepted through `true_top_`) and a tracked one. -/
theorem atomicStack_refines_overflow :
    0 < 2 ∧ RemovesHeld [] [.push 1 10, .push 2 20, .push 3 30, .remove 2, .remove 1] ∧
      Tracks (listRun [] [.push 1 10, .push 2 20, .push 3 30, .remove 2, .remove 1])
        ((AtomicStack.empty : AtomicStack ℕ ℕ 2).run
          [.push 1 10, .push 2 20, .push 3 30, .remove 2, .remove 1]).1 :=
  ⟨by decide, by decide, (atomicStack_refines (by decide) _ (by decide)).2.1⟩

/-! ## Balanced sequences -/

omit [Inhabited Item] [Inhabited Payload] in
/-- Erasing an item that is in the upper part of a stack leaves the lower part. -/
theorem eraseTop_append_of_mem {S P : List (Item × Payload)} {x : Item} (hx : x ∈ P.map Prod.fst) :
    eraseTop x (S ++ P) = S ++ eraseTop x P := by
  obtain ⟨q, hq, rfl⟩ := List.mem_map.1 hx
  simp only [eraseTop, List.reverse_append]
  rw [List.eraseP_append_left (by simp) _ (List.mem_reverse.2 hq), List.reverse_append, List.reverse_reverse]

omit [Inhabited Item] [Inhabited Payload] in
/-- Erasing the item pushed last gives back the stack below it. -/
theorem eraseTop_append_self (L : List (Item × Payload)) (x : Item) (p : Payload) :
    eraseTop x (L ++ [(x, p)]) = L := by
  simp [eraseTop]

section Above

/-- **A run above the tracked pairs `S`.** The atomic stack keeps `S` at the
bottom of its tracked pairs with a subsequence of `P`, the pairs the run pushed
and has not yet removed, on top, and its `true_top_` counts `T` pairs below
those of `P`. -/
structure Above (S : List (Item × Payload)) (T : ℕ) (P : List (Item × Payload))
    (t : AtomicStack Item Payload N) : Prop where
  top_le : t.top_ ≤ N
  subset_eq : ∃ Q, Q.Sublist P ∧ t.subset = S ++ Q
  trueTop_eq : t.trueTop_ = T + P.length

variable {S P : List (Item × Payload)} {T : ℕ} {t : AtomicStack Item Payload N}

omit [DecidableEq Item] in
/-- `push` keeps a run above `S` when `S` leaves a slot free: an overwrite of
slot `N - 1` hits a pair of the run. -/
theorem Above.push (hS : S.length < N) (h : Above S T P t) (x : Item) (p : Payload) :
    Above S T (P ++ [(x, p)]) (t.push x p) := by
  obtain ⟨Q, hQ, hs⟩ := h.subset_eq
  have htop := h.top_le
  refine ⟨by simp only [AtomicStack.push]; split <;> omega, ?_,
    by simp [AtomicStack.push, h.trueTop_eq, Nat.add_assoc]⟩
  rcases Nat.lt_or_ge t.top_ N with hlt | hge
  · exact ⟨Q ++ [(x, p)], hQ.append (List.Sublist.refl _),
      by rw [t.subset_push_of_lt hlt, hs, List.append_assoc]⟩
  · refine ⟨Q.take (N - 1 - S.length) ++ [(x, p)], ((List.take_sublist _ _).trans hQ).append
      (List.Sublist.refl _), ?_⟩
    rw [t.subset_push_of_full (by omega) hge htop, hs, List.take_append_eq_append_take,
      List.take_of_length_le (by omega), List.append_assoc]

/-- `remove` of a pair the run pushed, with an item not among `S`, keeps a run
above `S` and returns `true`. -/
theorem Above.remove (hle : S.length ≤ T) (h : Above S T P t) {x : Item} (hx : x ∈ P.map Prod.fst)
    (hxS : x ∉ S.map Prod.fst) :
    (t.remove x).1 = true ∧ Above S T (eraseTop x P) (t.remove x).2 := by
  obtain ⟨Q, hQ, hs⟩ := h.subset_eq
  have htr : Tracks (S ++ List.replicate (T - S.length) default ++ P) t :=
    ⟨h.top_le, by simp [h.trueTop_eq]; omega,
      hs ▸ (List.sublist_append_left S _).append hQ⟩
  have hx' : x ∈ (S ++ List.replicate (T - S.length) default ++ P).map Prod.fst := by
    rw [List.map_append]; exact List.mem_append_right _ hx
  obtain ⟨hr, htt, hc⟩ := htr.remove_cases hx'
  have hsub : (t.remove x).2.subset = S ++ eraseTop x Q := by
    rcases hc with ⟨hm, -, hs'⟩ | ⟨hm, -, hs'⟩ <;> rw [hs'] <;> rw [hs] at hm ⊢
    · rw [List.map_append] at hm
      exact eraseTop_append_of_mem ((List.mem_append.1 hm).resolve_left hxS)
    · rw [eraseTop_of_not_mem fun hq => hm (by rw [List.map_append]; exact List.mem_append_right _ hq)]
  have hP := List.length_pos_of_mem (List.mem_map.1 hx).choose_spec.1
  exact ⟨hr, (htr.remove hx').top_le, ⟨_, eraseTop_sublist x hQ, hsub⟩,
    by rw [htt, h.trueTop_eq, length_eraseTop hx]; omega⟩

/-- **Every run that removes only pairs it pushed, and no item among `S`, stays
above `S`**, overwrites on a full stack included. -/
theorem run_above (hS : S.length < N) (hle : S.length ≤ T) :
    ∀ (cs : List (AtomicStack.Call Item Payload)) {P : List (Item × Payload)}
      {t : AtomicStack Item Payload N}, Above S T P t → RemovesHeld P cs →
      (∀ x ∈ S.map Prod.fst, .remove x ∉ cs) → Above S T (listRun P cs) (t.run cs).1
  | [], _, _, h, _, _ => h
  | .push x p :: cs, _, _, h, hr, hn =>
    run_above hS hle cs (h.push hS x p) hr fun y hy hc => hn y hy (List.mem_cons_of_mem _ hc)
  | .remove x :: cs, _, _, h, ⟨hx, hr⟩, hn =>
    run_above hS hle cs (h.remove hle hx fun hxS => hn x hxS (List.mem_cons_self _ _)).2 hr
      fun y hy hc => hn y hy (List.mem_cons_of_mem _ hc)

end Above

/-- A sequence of calls is **balanced** when it removes only pairs it pushed
and not yet removed, and removes all it pushes. -/
def BalancedCalls (cs : List (AtomicStack.Call Item Payload)) : Prop :=
  RemovesHeld [] cs ∧ listRun [] cs = []

/-- **A balanced sequence restores a stack that is not full.** From a stack with
`top_ < N` and `top_ <= true_top_`, a balanced sequence of calls that removes no
item of `pairs_[0 .. top_)` ends with the same tracked pairs `pairs_[0 .. top_)`
and the same `true_top_`, at any depth the sequence reaches: a push on a full
stack then overwrites a pair the sequence pushed. -/
theorem balanced_restores (s : AtomicStack Item Payload N) (htop : s.top_ < N)
    (hle : s.top_ ≤ s.trueTop_) (cs : List (AtomicStack.Call Item Payload)) (hb : BalancedCalls cs)
    (hS : ∀ x ∈ (s.pairs_.take s.top_).map Prod.fst, .remove x ∉ cs) :
    (s.run cs).1.top_ = s.top_ ∧
      (s.run cs).1.pairs_.take (s.run cs).1.top_ = s.pairs_.take s.top_ ∧
      (s.run cs).1.trueTop_ = s.trueTop_ := by
  rw [← AtomicStack.subset_eq_take _ htop.le] at hS ⊢
  have h := run_above (s.length_subset ▸ htop) (s.length_subset ▸ hle) cs
    ⟨htop.le, ⟨[], List.Sublist.slnil, (List.append_nil _).symm⟩, rfl⟩ hb.1 hS
  rw [hb.2] at h
  obtain ⟨Q, hQ, hs⟩ := h.subset_eq
  rw [List.sublist_nil.1 hQ, List.append_nil] at hs
  have htop' : (s.run cs).1.top_ = s.top_ := by rw [← AtomicStack.length_subset, hs, s.length_subset]
  exact ⟨htop', by rw [← AtomicStack.subset_eq_take _ (htop' ▸ htop.le), hs], h.trueTop_eq⟩

/-- Sixteen mutexes pushed on a fresh stack of sixteen slots, the held-stack depth
of `AudioMutexAttributes`. -/
def fullStack : AtomicStack ℕ ℕ 16 :=
  (AtomicStack.empty.run ((List.range 16).map fun i => .push (i + 1) 0)).1

/-- **On a full stack a balanced sequence drops a hold.** Pushing a seventeenth
mutex overwrites slot 15, and removing it takes `top_` from 16 to 15: the
sixteenth mutex, still held, is no longer tracked, while `true_top_` is back
where it was. -/
theorem balanced_overflow_drops :
    BalancedCalls [.push 17 0, .remove 17] ∧ fullStack.top_ = 16 ∧
      (fullStack.run [.push 17 0, .remove 17]).1.top_ = 15 ∧
      (fullStack.run [.push 17 0, .remove 17]).1.trueTop_ = fullStack.trueTop_ :=
  ⟨⟨by decide, rfl⟩, by decide, by decide, by decide⟩

/-- One below full, three pushes fill the stack and overwrite slot 15 twice,
and removing them out of order restores the stack. -/
theorem balanced_restores_below_full :
    (fullStack.remove 16).2.top_ < 16 ∧ (fullStack.remove 16).2.top_ ≤ (fullStack.remove 16).2.trueTop_ ∧
      BalancedCalls [.push 17 0, .push 18 0, .push 19 0, .remove 17, .remove 19, .remove 18] ∧
      ((fullStack.remove 16).2.run
        [.push 17 0, .push 18 0, .push 19 0, .remove 17, .remove 19, .remove 18]).1.top_ =
        (fullStack.remove 16).2.top_ :=
  ⟨by decide, by decide, ⟨by decide, by decide⟩,
    (balanced_restores (fullStack.remove 16).2 (by decide) (by decide)
      [.push 17 0, .push 18 0, .push 19 0, .remove 17, .remove 19, .remove 18] ⟨by decide, by decide⟩
      (by decide)).1⟩

/-! ## `remove` on its own -/

/-- **`remove`'s failure path is exact and leaves no trace.** For a stack with
`top_ <= N` and `top_ <= true_top_`, and any item: `remove` fails exactly when
the item is not among `pairs_[0 .. top_)` and `true_top_ = top_`, and then the
stack is as it was; when it succeeds, `true_top_` drops by one, and `top_` drops
by one exactly when the item was among those pairs. -/
theorem remove_failure_exact (s : AtomicStack Item Payload N) (htop : s.top_ ≤ N)
    (hle : s.top_ ≤ s.trueTop_) (x : Item) :
    ((s.remove x).1 = false ↔ x ∉ (s.pairs_.take s.top_).map Prod.fst ∧ s.trueTop_ = s.top_) ∧
      ((s.remove x).1 = false → (s.remove x).2 = s) ∧
      ((s.remove x).1 = true → (s.remove x).2.trueTop_ = s.trueTop_ - 1 ∧
        (s.remove x).2.top_ =
          if x ∈ (s.pairs_.take s.top_).map Prod.fst then s.top_ - 1 else s.top_) := by
  simp only [← AtomicStack.subset_eq_take s htop, AtomicStack.mem_subset_map]
  unfold AtomicStack.remove
  by_cases h0 : s.trueTop_ = 0
  · rw [if_pos h0]
    exact ⟨iff_of_true rfl ⟨fun ⟨j, hj, _⟩ => by omega, by omega⟩, fun _ => rfl, nofun⟩
  rw [if_neg h0]
  split
  · rename_i i hi
    obtain ⟨hik, hix, -⟩ := AtomicStack.scan_some hi
    rw [if_pos ⟨i, hik, hix⟩]
    exact ⟨iff_of_false nofun fun h => h.1 ⟨i, hik, hix⟩, nofun, fun _ => ⟨rfl, rfl⟩⟩
  · rename_i hn
    have hnm : ¬∃ j < s.top_, (s.pairs_.getD j default).1 = x :=
      fun ⟨j, hj, hjx⟩ => AtomicStack.scan_none hn j hj hjx
    rw [if_neg hnm]
    by_cases hlt : s.top_ ≤ s.trueTop_ - 1
    · rw [if_pos hlt]
      exact ⟨iff_of_false nofun fun h => by omega, nofun, fun _ => ⟨rfl, rfl⟩⟩
    · have he : s.trueTop_ = s.top_ := by omega
      rw [if_neg hlt]
      exact ⟨iff_of_true rfl ⟨hnm, he⟩,
        fun _ => (congrArg (fun n => ({ s with trueTop_ := n } : AtomicStack Item Payload N)) he).symm,
        nofun⟩

/-- `remove` of a mutex that is not held from the full stack refuses and
changes nothing. -/
theorem remove_failure_exact_full :
    fullStack.top_ ≤ 16 ∧ fullStack.top_ ≤ fullStack.trueTop_ ∧ (fullStack.remove 17).2 = fullStack :=
  ⟨by decide, by decide, (remove_failure_exact fullStack (by decide) (by decide) 17).2.1 (by decide)⟩

end AudioUtils
