import AudioUtils.Proof.Deadlock
import Mathlib.Data.List.GetD
import Mathlib.Data.List.Nodup

/-!
# `deadlock_detection` follows the wait-for graph

On a registry map whose descriptors do not change, succ steps from a thread
waiting on a mutex to a thread whose tracked held stack, `bottom(0)` to
`bottom(size() - 1)`, holds that mutex, and otherwise to the tid of a valid
other wait. The chain that `deadlock_detection(t, names)` returns is the
succ-walk from `t`: the tids before the last are distinct, `has_cycle` says that
the last one repeats one of them, and otherwise succ is undefined at the last
(`deadlockDetection_answers`). When no mutex handle is in two held stacks, succ
is a function of the thread, and `has_cycle` says that the succ-walk from `t`
revisits a thread.

`mutex_to_tid` maps each held handle to one of its holders, the last in the
map's iteration order, whether or not the handles are unique.
-/

namespace AudioUtils

variable {N : ℕ}

/-! ## `mutex_to_tid` -/

theorem addHeldPairs_eq_some {tid2 v : ℤ} {map : ℕ → Option (ℤ × ℕ)} {pairs : List (ℕ × ℕ)}
    {m o : ℕ} (h : addHeldPairs tid2 map pairs m = some (v, o)) :
    map m = some (v, o) ∨ v = tid2 ∧ (m, o) ∈ pairs ∧ m ≠ 0 := by
  induction pairs generalizing map with
  | nil => exact .inl h
  | cons p pairs ih =>
    obtain ⟨p, o'⟩ := p
    rcases ih h with h | ⟨hv, hm, h0⟩
    · split_ifs at h with hp
      · exact .inl h
      · by_cases hmp : m = p
        · subst hmp
          obtain ⟨rfl, rfl⟩ : tid2 = v ∧ o' = o := by simpa using h
          exact .inr ⟨rfl, List.mem_cons_self _ _, hp⟩
        · exact .inl (by simpa [hmp] using h)
    · exact .inr ⟨hv, List.mem_cons_of_mem _ hm, h0⟩

theorem addHeldPairs_isSome {tid2 : ℤ} {map : ℕ → Option (ℤ × ℕ)} {pairs : List (ℕ × ℕ)} {m : ℕ}
    (h : (map m).isSome ∨ ∃ o, (m, o) ∈ pairs ∧ m ≠ 0) :
    (addHeldPairs tid2 map pairs m).isSome := by
  induction pairs generalizing map with
  | nil => simpa using h
  | cons p pairs ih =>
    obtain ⟨p, o'⟩ := p
    apply ih
    rcases h with h | ⟨o, ho, hm⟩
    · refine .inl ?_
      split_ifs
      · exact h
      · rw [Function.update_apply]
        split_ifs <;> simp [h]
    · rcases List.mem_cons.1 ho with he | ho
      · obtain ⟨rfl, rfl⟩ := Prod.mk.inj he
        exact .inl (by simp [hm])
      · exact .inr ⟨o, ho, hm⟩

theorem buildMutexToTid_eq_some {entries : List (ℤ × Option (ThreadMutexInfo N))}
    {map : ℕ → Option (ℤ × ℕ)} {m o : ℕ} {v : ℤ} (h : buildMutexToTid entries map m = some (v, o)) :
    map m = some (v, o) ∨ ∃ d, (v, some d) ∈ entries ∧ (m, o) ∈ heldPairs d ∧ m ≠ 0 := by
  induction entries generalizing map with
  | nil => exact .inl h
  | cons entry entries ih =>
    obtain ⟨tid2, _ | d⟩ := entry
    · rcases ih h with h | ⟨d, hd, hm⟩
      · exact .inl h
      · exact .inr ⟨d, List.mem_cons_of_mem _ hd, hm⟩
    · rcases ih h with h | ⟨d', hd, hm⟩
      · rcases addHeldPairs_eq_some h with h | ⟨rfl, hp, hm⟩
        · exact .inl h
        · exact .inr ⟨d, List.mem_cons_self _ _, hp, hm⟩
      · exact .inr ⟨d', List.mem_cons_of_mem _ hd, hm⟩

theorem buildMutexToTid_isSome {entries : List (ℤ × Option (ThreadMutexInfo N))}
    {map : ℕ → Option (ℤ × ℕ)} {m : ℕ}
    (h : (map m).isSome ∨ ∃ v d o, (v, some d) ∈ entries ∧ (m, o) ∈ heldPairs d ∧ m ≠ 0) :
    (buildMutexToTid entries map m).isSome := by
  induction entries generalizing map with
  | nil => simpa using h
  | cons entry entries ih =>
    obtain ⟨tid2, _ | d⟩ := entry
    · refine ih (h.imp id fun ⟨v, d, o, hd, hm⟩ => ⟨v, d, o, ?_, hm⟩)
      simpa using hd
    · refine ih ?_
      rcases h with h | ⟨v, d', o, hd, hm, h0⟩
      · exact .inl (addHeldPairs_isSome (.inl h))
      · rcases List.mem_cons.1 hd with he | hd
        · obtain ⟨rfl, rfl⟩ : v = tid2 ∧ d' = d := by simpa using he
          exact .inl (addHeldPairs_isSome (.inr ⟨o, hm, h0⟩))
        · exact .inr ⟨v, d', o, hd, hm, h0⟩

/-- The pairs the detector reads are the tracked stack's; a non-null one is never
past `capacity`, where the slots are value-initialised. -/
theorem mem_heldPairs_iff {d : ThreadMutexInfo N} {m o : ℕ} (hm : m ≠ 0) :
    (m, o) ∈ heldPairs d ↔ (m, o) ∈ d.mutexesHeld_.subset := by
  simp only [heldPairs, AtomicStack.subset, List.mem_map, List.mem_range]
  constructor
  · rintro ⟨i, hi, h⟩
    exact ⟨i, lt_of_lt_of_le hi (min_le_left _ _), h⟩
  · rintro ⟨i, hi, h⟩
    refine ⟨i, lt_min hi (Nat.lt_of_not_le fun hN => hm ?_), h⟩
    simp only [AtomicStack.bottom, AtomicStack.size] at h hi
    rw [if_pos hi, List.getD_eq_default _ _ (by rw [d.mutexesHeld_.pairs_length]; exact hN)] at h
    exact (Prod.mk.inj h).1.symm

/-! ## The snapshot and succ -/

/-- In a list of pairs with distinct keys, `lookup` finds each pair. -/
theorem lookup_eq_some_iff_mem {β : Type} {l : List (ℤ × β)} (hl : (l.map Prod.fst).Nodup)
    {a : ℤ} {b : β} : l.lookup a = some b ↔ (a, b) ∈ l := by
  induction l with
  | nil => simp
  | cons p l ih =>
    obtain ⟨a', b'⟩ := p
    simp only [List.map_cons, List.nodup_cons] at hl
    by_cases ha : a = a'
    · subst ha
      have : (a, b) ∉ l := fun h => hl.1 (List.mem_map_of_mem Prod.fst h)
      simp [this, eq_comm]
    · have hb : (a == a') = false := by simpa using ha
      simp [List.lookup_cons, hb, ha, ih hl.2]

namespace RegistryMap

variable (reg : RegistryMap N)

theorem tidToInfo_eq_some {v : ℤ} {d : ThreadMutexInfo N} :
    reg.tidToInfo v = some d ↔ (v, some d) ∈ reg.entries := by
  rw [tidToInfo, Option.join_eq_some, lookup_eq_some_iff_mem reg.keys_nodup]

theorem mem_keys_of_waitOf {v : ℤ} {w : WaitState} (h : reg.waitOf v = some w) : v ∈ reg.keys := by
  obtain ⟨d, hd, -⟩ := Option.map_eq_some'.1 h
  exact List.mem_map_of_mem Prod.fst ((reg.tidToInfo_eq_some).1 hd)

/-- On a snapshot, `tid_to_info` and the loads are `waitOf`. -/
@[simp] theorem loadInfo_waitOf (k : ℕ) (v : ℤ) :
    loadInfo reg.keys (fun _ => reg.waitOf) k v = reg.waitOf v := by
  unfold loadInfo
  split_ifs with hv
  · rfl
  · cases h : reg.waitOf v
    · rfl
    · exact absurd (reg.mem_keys_of_waitOf h) hv

/-- Thread `v` holds the non-null mutex `m`, pushed with order `o`: `(m, o)` is on
its tracked stack. -/
def Holds (v : ℤ) (m o : ℕ) : Prop :=
  m ≠ 0 ∧ ∃ d, reg.tidToInfo v = some d ∧ (m, o) ∈ d.mutexesHeld_.subset

/-- No mutex handle is in the held stacks of two threads. -/
def HandlesUnique : Prop :=
  ∀ {v v' : ℤ} {m o o' : ℕ}, reg.Holds v m o → reg.Holds v' m o' → v = v'

/-- The edges of succ from a thread in wait state `w`: to a holder of the awaited
mutex, with the order of its pair; when no thread holds it, to the other wait's
tid if that is valid. -/
def SuccEdge (w : WaitState) : Edge → Prop
  | .mutex v o => reg.Holds v w.mutexWait o
  | .other v o r =>
    (∀ v' o', ¬ reg.Holds v' w.mutexWait o') ∧ v ≠ kInvalidTid ∧ w.otherWait = ⟨v, r, o⟩

/-- succ from `u` to `v`, with the label of its chain entry. -/
def Succ (names : List String) (u v : ℤ) (l : String) : Prop :=
  ∃ w e, reg.waitOf u = some w ∧ reg.SuccEdge w e ∧ e.tid = v ∧ chainLabel names e = l

/-- succ is undefined at `u`: it has no live descriptor, or no edge. -/
def Stuck (names : List String) (u : ℤ) : Prop := ∀ v l, ¬ reg.Succ names u v l

/-- `chain` is a succ-walk from `u`. -/
inductive SuccWalk (reg : RegistryMap N) (names : List String) : ℤ → List (ℤ × String) → Prop
  | nil (u : ℤ) : SuccWalk reg names u []
  | cons {u v : ℤ} {l : String} {chain : List (ℤ × String)} :
    reg.Succ names u v l → SuccWalk reg names v chain → SuccWalk reg names u ((v, l) :: chain)

/-- The holder `mutex_to_tid` gives for a handle holds it. -/
theorem holds_of_mutexToTid {m o : ℕ} {v : ℤ} (h : reg.mutexToTid m = some (v, o)) :
    reg.Holds v m o := by
  rcases buildMutexToTid_eq_some h with h | ⟨d, hd, hm, h0⟩
  · cases h
  · exact ⟨h0, d, (reg.tidToInfo_eq_some).2 hd, (mem_heldPairs_iff h0).1 hm⟩

/-- Every held handle is in `mutex_to_tid`. -/
theorem mutexToTid_isSome {m o : ℕ} {v : ℤ} (h : reg.Holds v m o) : (reg.mutexToTid m).isSome := by
  obtain ⟨h0, d, hd, hm⟩ := h
  exact buildMutexToTid_isSome (.inr ⟨v, d, o, (reg.tidToInfo_eq_some).1 hd, (mem_heldPairs_iff h0).2 hm, h0⟩)

/-- The pass finds the holder of the awaited mutex exactly when it has one. -/
theorem heldBy_eq_none {w : WaitState} :
    (if w.mutexWait = 0 then none else reg.mutexToTid w.mutexWait) = none ↔
      ∀ v o, ¬ reg.Holds v w.mutexWait o := by
  split_ifs with h0
  · exact iff_of_true rfl fun _ _ h => h.1 h0
  · refine ⟨fun h v o hv => ?_, fun h => ?_⟩
    · simpa [h] using reg.mutexToTid_isSome hv
    · cases hm : reg.mutexToTid w.mutexWait with
      | none => rfl
      | some x => exact absurd (reg.holds_of_mutexToTid hm) (h x.1 x.2)

/-- The edge a pass follows is an edge of succ. -/
theorem succEdge_of_nextEdge {w : WaitState} {e : Edge} (h : nextEdge reg.mutexToTid w = some e) :
    reg.SuccEdge w e := by
  unfold nextEdge at h
  split at h
  · next v o hv =>
    cases h
    split_ifs at hv
    exact reg.holds_of_mutexToTid hv
  · next hv =>
    split_ifs at h with ht
    cases h
    exact ⟨(reg.heldBy_eq_none).1 hv, ht, rfl⟩

/-- A pass that finds no edge stops where succ is undefined. -/
theorem not_succEdge_of_nextEdge {w : WaitState} (h : nextEdge reg.mutexToTid w = none)
    (e : Edge) : ¬ reg.SuccEdge w e := by
  unfold nextEdge at h
  split at h
  · cases h
  · next hv =>
    split_ifs at h with ht
    cases e with
    | mutex v o => exact (reg.heldBy_eq_none).1 hv v o
    | other v o r => exact fun ⟨_, hv, hw⟩ => hv (by rw [← ht, hw])

variable {reg}

/-- Under unique handles, succ is a function of the thread. -/
theorem succ_tid_eq (hu : reg.HandlesUnique) {names : List String} {u v v' : ℤ} {l l' : String}
    (h : reg.Succ names u v l) (h' : reg.Succ names u v' l') : v = v' := by
  obtain ⟨w, e, hw, he, rfl, -⟩ := h
  obtain ⟨w', e', hw', he', rfl, -⟩ := h'
  obtain rfl : w = w' := Option.some.inj (hw.symm.trans hw')
  cases e <;> cases e'
  · exact hu he he'
  · exact absurd he (he'.1 _ _)
  · exact absurd he' (he.1 _ _)
  · exact (OtherWaitInfo.mk.inj (he.2.2.symm.trans he'.2.2)).1

theorem SuccWalk.snoc {names : List String} {u v : ℤ} {l : String} {chain : List (ℤ × String)}
    (h : reg.SuccWalk names u chain) (hs : reg.Succ names ((chain.map Prod.fst).getLastD u) v l) :
    reg.SuccWalk names u (chain ++ [(v, l)]) := by
  induction h with
  | nil u => exact .cons hs (.nil v)
  | cons hu _ ih => exact .cons hu (ih (by rwa [List.map_cons, List.getLastD_cons] at hs))

/-- Under unique handles, a succ-walk that ends where succ is undefined extends
every succ-walk from the same thread. -/
theorem SuccWalk.prefix_of_stuck (hu : reg.HandlesUnique) {names : List String} {u : ℤ}
    {c c' : List (ℤ × String)} (h : reg.SuccWalk names u c)
    (hs : reg.Stuck names ((c.map Prod.fst).getLastD u)) (h' : reg.SuccWalk names u c') :
    c'.map Prod.fst <+: c.map Prod.fst := by
  induction h generalizing c' with
  | nil u =>
    cases h' with
    | nil => exact List.nil_prefix
    | cons hv _ => exact absurd hv (hs _ _)
  | cons hv _ ih =>
    cases h' with
    | nil => exact List.nil_prefix
    | cons hv' hw' =>
      obtain rfl := succ_tid_eq hu hv' hv
      simpa using ih (by rwa [List.map_cons, List.getLastD_cons] at hs) hw'

theorem stuck_of_waitOf_none {names : List String} {u : ℤ} (hw : reg.waitOf u = none) :
    reg.Stuck names u :=
  fun _ _ ⟨_, _, h, _⟩ => by simp [hw] at h

theorem stuck_of_nextEdge {names : List String} {u : ℤ} {w : WaitState}
    (hw : reg.waitOf u = some w) (he : nextEdge reg.mutexToTid w = none) : reg.Stuck names u := by
  rintro _ _ ⟨w', e, hw', hse, -⟩
  obtain rfl : w = w' := Option.some.inj (hw.symm.trans hw')
  exact reg.not_succEdge_of_nextEdge he e hse

end RegistryMap

namespace DeadlockInfo

/-- The last tid of the path: that of the last chain entry, or the target's. -/
def lastTid (info : DeadlockInfo) : ℤ := (info.chain.map Prod.fst).getLastD info.tid

variable (info : DeadlockInfo)

theorem path_eq_dropLast_append : info.path = info.path.dropLast ++ [info.lastTid] := by
  rw [lastTid, ← List.getLast_eq_getLastD info.tid _ (List.cons_ne_nil _ _)]
  exact (List.dropLast_concat_getLast _).symm

theorem path_nodup_iff :
    info.path.Nodup ↔ info.path.dropLast.Nodup ∧ info.lastTid ∉ info.path.dropLast := by
  conv_lhs => rw [path_eq_dropLast_append]
  rw [List.nodup_append_comm, List.singleton_append, List.nodup_cons, and_comm]

@[simp] theorem lastTid_record (names : List String) (e : Edge) :
    (info.record names e).lastTid = e.tid := by
  rw [lastTid, record_chain, List.map_append, List.map_singleton, List.getLastD_concat]

end DeadlockInfo

open DeadlockInfo

/-- What the spec says `deadlock_detection(t, names)` returns on a snapshot: the
chain is the succ-walk from `t`; `t` and the chain tids before the last are
distinct; `has_cycle` is set exactly when the last tid repeats one of them, and
otherwise succ is undefined at the last tid. -/
structure RegistryMap.WalkAnswer (reg : RegistryMap N) (names : List String) (t : ℤ)
    (info : DeadlockInfo) : Prop where
  tid_eq : info.tid = t
  walk : reg.SuccWalk names t info.chain
  earlier_nodup : info.path.dropLast.Nodup
  cycle_iff : info.hasCycle = true ↔ info.lastTid ∈ info.path.dropLast
  stuck : info.hasCycle = false → reg.Stuck names info.lastTid

/-- The walk from `t` at the start of a pass: `visited` is the path so far,
newest first, with no repeat; the chain is a succ-walk; `w` is what the last
tid's descriptor holds. -/
structure RegistryMap.WalkState (reg : RegistryMap N) (names : List String) (t : ℤ)
    (visited : List ℤ) (w : WaitState) (info : DeadlockInfo) : Prop where
  tid_eq : info.tid = t
  no_cycle : info.hasCycle = false
  path_eq : info.path = visited.reverse
  nodup : visited.Nodup
  walk : reg.SuccWalk names t info.chain
  wait_last : reg.waitOf info.lastTid = some w

namespace RegistryMap

variable {reg : RegistryMap N} {names : List String} {t : ℤ}

theorem WalkAnswer.of_stuck (h : reg.Stuck names t) : reg.WalkAnswer names t { tid := t } :=
  ⟨rfl, .nil t, List.nodup_nil, by simp [path], fun _ => h⟩

namespace WalkState

variable {visited : List ℤ} {w : WaitState} {info : DeadlockInfo} {e : Edge}
  (hs : reg.WalkState names t visited w info)
include hs

theorem path_nodup : info.path.Nodup := hs.path_eq ▸ List.nodup_reverse.2 hs.nodup

theorem mem_path_iff {x : ℤ} : x ∈ info.path ↔ x ∈ visited := by simp [hs.path_eq]

/-- A pass that finds no edge answers with the walk so far. -/
theorem answer_stop (he : nextEdge reg.mutexToTid w = none) : reg.WalkAnswer names t info := by
  obtain ⟨hnd, hlast⟩ := (path_nodup_iff _).1 hs.path_nodup
  exact ⟨hs.tid_eq, hs.walk, hnd, by simp [hs.no_cycle, hlast],
    fun _ => reg.stuck_of_nextEdge hs.wait_last he⟩

/-- The edge a pass follows extends the succ-walk. -/
theorem walk_record (he : nextEdge reg.mutexToTid w = some e) :
    reg.SuccWalk names t (info.record names e).chain := by
  have hlast : info.lastTid = (info.chain.map Prod.fst).getLastD t := by rw [lastTid, hs.tid_eq]
  exact hs.walk.snoc (hlast ▸ ⟨w, e, hs.wait_last, reg.succEdge_of_nextEdge he, rfl, rfl⟩)

/-- A pass that reaches a visited tid answers with a cycle. -/
theorem answer_cycle (he : nextEdge reg.mutexToTid w = some e) (hv : e.tid ∈ visited) :
    reg.WalkAnswer names t { info.record names e with hasCycle := true } := by
  have hdrop : (info.record names e).path.dropLast = info.path := by simp
  refine ⟨hs.tid_eq, hs.walk_record he, ?_, ?_, by simp⟩
  · change (info.record names e).path.dropLast.Nodup
    exact hdrop ▸ hs.path_nodup
  · change _ ↔ (info.record names e).lastTid ∈ (info.record names e).path.dropLast
    simpa [hdrop] using hs.mem_path_iff.2 hv

/-- A pass that reaches a tid with no live descriptor answers without a cycle. -/
theorem answer_unregistered (he : nextEdge reg.mutexToTid w = some e) (hv : e.tid ∉ visited)
    (hw : reg.waitOf e.tid = none) : reg.WalkAnswer names t (info.record names e) :=
  ⟨hs.tid_eq, hs.walk_record he, by simpa using hs.path_nodup,
    by simpa [hs.no_cycle] using hv ∘ hs.mem_path_iff.1, fun _ => by simpa using stuck_of_waitOf_none hw⟩

/-- A pass that goes on keeps the walk state. -/
theorem extend (he : nextEdge reg.mutexToTid w = some e) (hv : e.tid ∉ visited) {w' : WaitState}
    (hw : reg.waitOf e.tid = some w') :
    reg.WalkState names t (e.tid :: visited) w' (info.record names e) :=
  ⟨hs.tid_eq, hs.no_cycle, by simp [hs.path_eq], List.nodup_cons.2 ⟨hv, hs.nodup⟩,
    hs.walk_record he, by simpa using hw⟩

end WalkState

/-- **Each pass keeps the walk.** A completed traversal from a walk state answers
as the spec says. -/
theorem traverse_answers (fuel k : ℕ) {visited : List ℤ} {w : WaitState} {info r : DeadlockInfo}
    (hs : reg.WalkState names t visited w info)
    (h : traverse names reg.keys reg.mutexToTid (fun _ => reg.waitOf) fuel k visited w info = some r) :
    reg.WalkAnswer names t r := by
  induction fuel generalizing k visited w info with
  | zero => cases h
  | succ fuel ih =>
    rw [traverse] at h
    cases he : nextEdge reg.mutexToTid w with
    | none =>
      simp only [he, Option.some.injEq] at h
      exact h ▸ hs.answer_stop he
    | some e =>
      rw [he] at h
      dsimp only at h
      rw [loadInfo_waitOf] at h
      split_ifs at h with hv
      · cases h
        exact hs.answer_cycle he hv
      · cases hw : reg.waitOf e.tid with
        | none =>
          rw [hw] at h
          cases h
          exact hs.answer_unregistered he hv hw
        | some w' =>
          rw [hw] at h
          exact ih (k + 1) (hs.extend he hv hw) h

/-- **The chain is the succ-walk** from the target, for every snapshot. -/
theorem deadlockDetection_answers (reg : RegistryMap N) (names : List String) (t : ℤ) :
    ∃ info, deadlockDetection reg names t = some info ∧ reg.WalkAnswer names t info := by
  unfold deadlockDetection deadlockDetectionWith
  rw [reg.loadInfo_waitOf]
  cases hw : reg.waitOf t with
  | none => exact ⟨_, rfl, .of_stuck (stuck_of_waitOf_none hw)⟩
  | some w =>
    dsimp only
    split_ifs with h0
    · exact ⟨_, rfl, .of_stuck (reg.stuck_of_nextEdge hw (by simp [nextEdge, h0.1, h0.2]))⟩
    · have hlt := unvisited_cons_lt (reg.mem_keys_of_waitOf hw) (List.not_mem_nil t)
      rw [unvisited_nil, keys, List.length_map] at hlt
      obtain ⟨r, hr, -⟩ :=
        @traverse_completes names reg.keys reg.mutexToTid (fun _ => reg.waitOf) _ 1 [t] w { tid := t } hlt
      have hs : reg.WalkState names t [t] w { tid := t } :=
        ⟨rfl, rfl, rfl, List.nodup_singleton t, .nil t, hw⟩
      exact ⟨r, hr, traverse_answers _ _ hs hr⟩

end RegistryMap

/-- **`deadlock_detection` is correct on a frozen snapshot.** Its chain is the
succ-walk from the target `t`, `t` and the chain tids before the last are
distinct, and `has_cycle` is set exactly when the last tid repeats one of them;
otherwise succ is undefined at the last tid. When no mutex handle is in two held
stacks, `has_cycle` says that the succ-walk from `t` revisits a thread. -/
theorem deadlockDetection_follows_succ (reg : RegistryMap N) (names : List String) (t : ℤ)
    (hu : reg.HandlesUnique) :
    ∃ info, deadlockDetection reg names t = some info ∧ reg.WalkAnswer names t info ∧
      (info.hasCycle = true ↔
        ∃ chain, reg.SuccWalk names t chain ∧ ¬ (t :: chain.map Prod.fst).Nodup) := by
  obtain ⟨info, h, ha⟩ := reg.deadlockDetection_answers names t
  have hpath : info.path = t :: info.chain.map Prod.fst := by rw [path, ha.tid_eq]
  refine ⟨info, h, ha, fun hc => ⟨info.chain, ha.walk, ?_⟩, fun ⟨chain, hw, hnd⟩ => ?_⟩
  · rw [← hpath, path_nodup_iff]
    exact fun h => h.2 (ha.cycle_iff.1 hc)
  · by_contra hc
    have hc : info.hasCycle = false := by simpa using hc
    have hs : reg.Stuck names ((info.chain.map Prod.fst).getLastD t) := ha.tid_eq ▸ ha.stuck hc
    have hnodup : info.path.Nodup :=
      (path_nodup_iff _).2 ⟨ha.earlier_nodup, fun h => by simp [ha.cycle_iff.2 h] at hc⟩
    rw [hpath] at hnodup
    exact hnd (hnodup.sublist ((List.prefix_cons_inj t).2 (ha.walk.prefix_of_stuck hu hs hw)).sublist)

/-- Unique handles, checked over the entries. -/
theorem RegistryMap.handlesUnique_of_entries (reg : RegistryMap N)
    (h : ∀ e ∈ reg.entries, ∀ e' ∈ reg.entries, ∀ d ∈ e.2, ∀ d' ∈ e'.2,
      ∀ p ∈ d.mutexesHeld_.subset, ∀ p' ∈ d'.mutexesHeld_.subset, p.1 = p'.1 → p.1 ≠ 0 → e.1 = e'.1) :
    reg.HandlesUnique := fun ⟨hm, d, hd, hp⟩ ⟨_, d', hd', hp'⟩ =>
  h _ ((reg.tidToInfo_eq_some).1 hd) _ ((reg.tidToInfo_eq_some).1 hd') d rfl d' rfl _ hp _ hp' rfl hm

/-- Two threads, each holding the mutex the other waits for. -/
def mutexCycle : RegistryMap 4 :=
  ⟨[(1, some { tid_ := 1, mutexWait_ := 20, mutexesHeld_ := AtomicStack.empty.push 10 0 }),
    (2, some { tid_ := 2, mutexWait_ := 10, mutexesHeld_ := AtomicStack.empty.push 20 1 })],
    by decide⟩

theorem deadlockDetection_follows_succ_mutexCycle :
    mutexCycle.HandlesUnique ∧
      ∃ info, deadlockDetection mutexCycle ["m0", "m1"] 1 = some info ∧
        mutexCycle.WalkAnswer ["m0", "m1"] 1 info ∧
        (info.hasCycle = true ↔
          ∃ chain, mutexCycle.SuccWalk ["m0", "m1"] 1 chain ∧ ¬ (1 :: chain.map Prod.fst).Nodup) :=
  have hu : mutexCycle.HandlesUnique := mutexCycle.handlesUnique_of_entries (by decide)
  ⟨hu, deadlockDetection_follows_succ mutexCycle ["m0", "m1"] 1 hu⟩

example : deadlockDetection mutexCycle ["m0", "m1"] 1 =
    some { tid := 1, hasCycle := true, chain := [(2, "m1"), (1, "m0")] } := by
  decide

end AudioUtils
