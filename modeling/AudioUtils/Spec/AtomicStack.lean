import Mathlib.Data.List.Basic
import Mathlib.Algebra.Group.Nat.Basic
import Mathlib.Algebra.Group.Int

/-!
# `atomic_stack`

The bounded stack of `audio_utils/mutex.h` in which every thread records the
mutexes it holds, as `(handle, order)` pairs. It has `N` slots `pairs_`, a
physical top `top_` and a logical top `true_top_`: once `N` pairs are tracked a
push overwrites slot `N - 1`, and a remove that finds nothing is accepted while
`true_top_` says an untracked pair is left.

Slots at or above `top_` keep whatever was last written to them; only
`pairs_[0 .. top_)`, the tracked **subset stack**, is read by `bottom`.
-/

namespace AudioUtils

/-- `atomic_stack<Item, Payload, N>`. The fields are the members `pairs_`, `top_`
and `true_top_`; the array has exactly `N` slots. -/
structure AtomicStack (Item Payload : Type) (N : ℕ) where
  pairs_ : List (Item × Payload)
  top_ : ℕ
  trueTop_ : ℕ
  pairs_length : pairs_.length = N

/-- `static_cast<ssize_t>` of a 64-bit value: its two's complement reading. -/
def ssize (x : ℤ) : ℤ := x.bmod (2 ^ 64)

namespace AtomicStack

variable {Item Payload : Type} [Inhabited Item] [Inhabited Payload] {N : ℕ}

/-- The value-initialised stack, `pairs_[N]{}` with both tops at `0`. -/
def empty : AtomicStack Item Payload N := ⟨List.replicate N default, 0, 0, by simp⟩

/-- `size()`. -/
def size (s : AtomicStack Item Payload N) : ℕ := s.top_

/-- `true_size()`. -/
def trueSize (s : AtomicStack Item Payload N) : ℕ := s.trueTop_

/-- `invalid()`: the zero-initialised pair returned for a slot that is not tracked. -/
def invalid : Item × Payload := default

/-- `push`: the pair goes to slot `top_`, or over slot `N - 1` when the stack is
full; `true_top_` always advances. -/
def push (s : AtomicStack Item Payload N) (item : Item) (payload : Payload) :
    AtomicStack Item Payload N where
  pairs_ := s.pairs_.set (if N ≤ s.top_ then N - 1 else s.top_) (item, payload)
  top_ := s.top_ + if N ≤ s.top_ then 0 else 1
  trueTop_ := s.trueTop_ + 1
  pairs_length := by simp [s.pairs_length]

/-- The scan of `remove`, `for (size_t i = top_; i > 0; ) if (item == pairs_[--i].first)`:
the highest slot below `i` holding `item`. -/
def scan [DecidableEq Item] (pairs : List (Item × Payload)) (item : Item) : ℕ → Option ℕ
  | 0 => none
  | i + 1 => if item = (pairs.getD i default).1 then some i else scan pairs item i

/-- The shift of `remove`, `while (i < limit) { pairs_[i] = pairs_[i + 1]; ++i; }`,
run for its `limit - i` rounds. -/
def shift (pairs : List (Item × Payload)) (i : ℕ) : ℕ → List (Item × Payload)
  | 0 => pairs
  | k + 1 => shift (pairs.set i (pairs.getD (i + 1) default)) (i + 1) k

@[simp] theorem length_shift (pairs : List (Item × Payload)) (i k : ℕ) :
    (shift pairs i k).length = pairs.length := by
  induction k generalizing pairs i with
  | zero => rfl
  | succ k ih => simp [shift, ih]

/-- `remove`: its result and the stack after it. `true_top_` is decremented
first; a pair found below `top_` is shifted out; otherwise the removal is
accepted when `true_top_ >= top_` still holds, and refused, with `true_top_`
reset to `top_`, when it does not. -/
def remove [DecidableEq Item] (s : AtomicStack Item Payload N) (item : Item) :
    Bool × AtomicStack Item Payload N :=
  if s.trueTop_ = 0 then (false, s)
  else
    match scan s.pairs_ item s.top_ with
    | some i =>
      (true, { pairs_ := shift s.pairs_ i (s.top_ - 1 - i), top_ := s.top_ - 1,
               trueTop_ := s.trueTop_ - 1, pairs_length := by simp [s.pairs_length] })
    | none =>
      if s.top_ ≤ s.trueTop_ - 1 then (true, { s with trueTop_ := s.trueTop_ - 1 })
      else (false, { s with trueTop_ := s.top_ })

/-- `top(offset)`: the pair `offset` below the top, through the `ssize_t`
arithmetic of the source, or `invalid_`. -/
def top (s : AtomicStack Item Payload N) (offset : ℕ) : Item × Payload :=
  let top := ssize (ssize s.top_ - ssize offset)
  if 0 < top ∧ top ≤ N then s.pairs_.getD (top - 1).toNat default else invalid

/-- `bottom(offset)`: the pair at `offset` from the base, or `invalid_`. -/
def bottom (s : AtomicStack Item Payload N) (offset : ℕ) : Item × Payload :=
  if offset < s.top_ then s.pairs_.getD offset default else invalid

/-- The tracked subset stack, `bottom(0), …, bottom(size() - 1)` from the base. -/
def subset (s : AtomicStack Item Payload N) : List (Item × Payload) :=
  (List.range s.size).map s.bottom

/-- A call on the stack by its writer thread. -/
inductive Call (Item Payload : Type)
  | push (item : Item) (payload : Payload)
  | remove (item : Item)
  deriving DecidableEq

/-- A sequence of calls from `s`: the stack after them and the results of the
removes, in order. -/
def run [DecidableEq Item] (s : AtomicStack Item Payload N) :
    List (Call Item Payload) → AtomicStack Item Payload N × List Bool
  | [] => (s, [])
  | .push item payload :: cs => run (s.push item payload) cs
  | .remove item :: cs =>
    ((run (s.remove item).2 cs).1, (s.remove item).1 :: (run (s.remove item).2 cs).2)

end AtomicStack

/-- The unbounded stack that `atomic_stack` approximates: `remove` erases the
topmost pair holding the item. -/
def eraseTop {Item Payload : Type} [DecidableEq Item] (item : Item)
    (L : List (Item × Payload)) : List (Item × Payload) :=
  (L.reverse.eraseP fun p => p.1 = item).reverse

end AudioUtils
