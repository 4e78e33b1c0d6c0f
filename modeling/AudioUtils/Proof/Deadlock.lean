import AudioUtils.Spec.Deadlock

/-!
# `deadlock_detection` terminates

`tid_to_info` is `nullptr` for a tid that is not a key of the registry map, so a
pass of the traversal that goes on adds to `visited` a key not visited before.
The keys not yet visited measure the loop: it stops within `|registry_map|`
passes, and its chain has at most that many entries, whatever the loads read and
whatever `mutex_to_tid` the reads of the held stacks built.
-/

namespace AudioUtils

namespace DeadlockInfo

variable (names : List String) (info : DeadlockInfo) (e : Edge)

@[simp] theorem record_tid : (info.record names e).tid = info.tid := rfl

@[simp] theorem record_hasCycle : (info.record names e).hasCycle = info.hasCycle := rfl

@[simp] theorem record_chain :
    (info.record names e).chain = info.chain ++ [(e.tid, chainLabel names e)] := rfl

@[simp] theorem path_record : (info.record names e).path = info.path ++ [e.tid] := by
  simp [path]

end DeadlockInfo

theorem mem_of_loadInfo_eq_some {keys : List ℤ} {lockAndLoad : ℕ → ℤ → Option WaitState}
    {k : ℕ} {tid : ℤ} {w : WaitState} (h : loadInfo keys lockAndLoad k tid = some w) :
    tid ∈ keys := by
  by_contra hk
  simp [loadInfo, hk] at h

/-- The keys not yet visited. -/
def unvisited (keys visited : List ℤ) : ℕ := (keys.filter fun x => x ∉ visited).length

theorem unvisited_nil (keys : List ℤ) : unvisited keys [] = keys.length := by
  simp [unvisited]

/-- Visiting a key not visited before lowers the measure. -/
theorem unvisited_cons_lt {keys visited : List ℤ} {a : ℤ} (ha : a ∈ keys) (hv : a ∉ visited) :
    unvisited keys (a :: visited) < unvisited keys visited := by
  have hfilter : keys.filter (fun x => x ∉ a :: visited) =
      (keys.filter fun x => x ∉ visited).filter fun x => x ≠ a := by
    rw [List.filter_filter]
    exact List.filter_congr fun x _ => by simp [and_comm]
  rw [unvisited, unvisited, hfilter, List.length_filter_lt_length_iff_exists]
  exact ⟨a, List.mem_filter.2 ⟨ha, by simpa using hv⟩, by simp⟩

section Traverse

variable {names : List String} {keys : List ℤ} {mutexToTid : ℕ → Option (ℤ × ℕ)}
  {lockAndLoad : ℕ → ℤ → Option WaitState}

/-- More passes give the same result. -/
theorem traverse_mono {fuel fuel' k : ℕ} {visited : List ℤ} {w : WaitState}
    {info r : DeadlockInfo}
    (h : traverse names keys mutexToTid lockAndLoad fuel k visited w info = some r)
    (hle : fuel ≤ fuel') :
    traverse names keys mutexToTid lockAndLoad fuel' k visited w info = some r := by
  induction fuel generalizing fuel' k visited w info with
  | zero => cases h
  | succ fuel ih =>
    obtain ⟨fuel', rfl⟩ : ∃ f, fuel' = f + 1 := ⟨fuel' - 1, by omega⟩
    rw [traverse] at h ⊢
    cases he : nextEdge mutexToTid w with
    | none => simpa [he] using h
    | some e =>
      simp only [he] at h ⊢
      split_ifs at h ⊢
      · exact h
      · cases hl : loadInfo keys lockAndLoad k e.tid with
        | none => simpa [hl] using h
        | some w' =>
          simp only [hl] at h ⊢
          exact ih h (by omega)

/-- **Enough passes complete the traversal.** With more passes than keys left to
visit, the loop returns, and adds at most one entry to the chain for each of
those keys and one more. -/
theorem traverse_completes (fuel k : ℕ) (visited : List ℤ) (w : WaitState) (info : DeadlockInfo)
    (h : unvisited keys visited < fuel) :
    ∃ r, traverse names keys mutexToTid lockAndLoad fuel k visited w info = some r ∧
      r.chain.length ≤ info.chain.length + unvisited keys visited + 1 := by
  induction fuel generalizing k visited w info with
  | zero => omega
  | succ fuel ih =>
    rw [traverse]
    cases he : nextEdge mutexToTid w with
    | none => exact ⟨info, rfl, by omega⟩
    | some e =>
      dsimp only
      by_cases hv : e.tid ∈ visited
      · exact ⟨_, if_pos hv, by simp⟩
      rw [if_neg hv]
      cases hl : loadInfo keys lockAndLoad k e.tid with
      | none => exact ⟨_, rfl, by simp⟩
      | some w' =>
        have hlt := unvisited_cons_lt (mem_of_loadInfo_eq_some hl) hv
        obtain ⟨r, hr, hlen⟩ := ih (k + 1) (e.tid :: visited) w' (info.record names e) (by omega)
        simp only [DeadlockInfo.record_chain, List.length_append, List.length_singleton] at hlen
        exact ⟨r, hr, by omega⟩

end Traverse

/-- **`deadlock_detection` terminates.** For any keys of the registry map, any
`mutex_to_tid` and any values the loads read, `|keys|` passes of the loop
complete it, its chain has at most `|keys|` entries, and more passes give the
same answer. -/
theorem deadlockDetection_terminates (names : List String) (keys : List ℤ)
    (mutexToTid : ℕ → Option (ℤ × ℕ)) (lockAndLoad : ℕ → ℤ → Option WaitState) (tid : ℤ) :
    ∃ info, deadlockDetectionWith names keys mutexToTid lockAndLoad keys.length tid = some info ∧
      info.chain.length ≤ keys.length ∧
      ∀ fuel, keys.length ≤ fuel →
        deadlockDetectionWith names keys mutexToTid lockAndLoad fuel tid = some info := by
  unfold deadlockDetectionWith
  cases h0 : loadInfo keys lockAndLoad 0 tid with
  | none => exact ⟨_, rfl, by simp, fun _ _ => rfl⟩
  | some w =>
    dsimp only
    split_ifs
    · exact ⟨_, rfl, by simp, fun _ _ => rfl⟩
    · have hlt := unvisited_cons_lt (mem_of_loadInfo_eq_some h0) (List.not_mem_nil tid)
      rw [unvisited_nil] at hlt
      obtain ⟨r, hr, hlen⟩ :=
        @traverse_completes names keys mutexToTid lockAndLoad _ 1 [tid] w { tid } hlt
      exact ⟨r, hr, by simp at hlen; omega, fun _ hf => traverse_mono hr hf⟩

end AudioUtils
