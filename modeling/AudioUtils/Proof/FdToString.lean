import AudioUtils.Spec.FdToString

/-!
# Prefixing in the `FdToString` reader

* `chunkLoop_newline`, `chunkLoop_tail`: the inner loop in closed form, one
  lemma for a line ending inside the chunk and one for the chunk's tail.
* `fdToString_tail_unprefixed`: a line that starts in the tail of a read gets no
  prefix, so `"a\nb\n"` read whole and read as `"a\nb"` then `"\n"` give
  different strings, and only the first is `prefixLines`.
* `readerOutput_lineAligned`: with an empty prefix, or when every read ends
  with a newline, the reader returns `prefixLines` of the bytes written.
-/

namespace AudioUtils

variable {pfx : List Char}

/-! ## The inner loop -/

theorem findIdx_newline_eq_none {sv : List Char} (h : '\n' ∉ sv) :
    sv.findIdx? (· == '\n') = none :=
  List.findIdx?_eq_none_iff.2 fun c hc => by
    simp only [beq_eq_false_iff_ne, ne_eq]; rintro rfl; exact h hc

/-- A line that ends inside the chunk: the prefix if one is pending, the line
with its newline, and the loop goes on with the rest, a prefix pending. -/
theorem chunkLoop_newline {seg rest out : List Char} (b : Bool) (hseg : '\n' ∉ seg) :
    chunkLoop pfx (seg ++ '\n' :: rest) out b =
      chunkLoop pfx rest (out ++ (if b then pfx else []) ++ (seg ++ ['\n'])) true := by
  have hfind : (seg ++ '\n' :: rest).findIdx? (· == '\n') = some seg.length := by
    rw [List.findIdx?_append, findIdx_newline_eq_none hseg]; simp
  have htake : (seg ++ '\n' :: rest).take (seg.length + 1) = seg ++ ['\n'] := by
    simp [List.take_append_eq_append_take]
  have hdrop : (seg ++ '\n' :: rest).drop (seg.length + 1) = rest := by
    simp [List.drop_append_eq_append_drop]
  rw [chunkLoop]
  split
  · rename_i ind h
    rw [hfind, Option.some.injEq] at h
    subst h
    rw [htake, hdrop]
  · rename_i h; rw [hfind] at h; cases h

/-- The chunk's tail: appended as it is, with no prefix, and no prefix pending
after it unless it is empty. -/
theorem chunkLoop_tail {sv out : List Char} (b : Bool) (h : '\n' ∉ sv) :
    chunkLoop pfx sv out b = if sv = [] then (out, b) else (out ++ sv, false) := by
  rw [chunkLoop]
  split
  · rename_i h'; rw [findIdx_newline_eq_none h] at h'; cases h'
  · cases sv <;> simp

theorem exists_first_newline {sv : List Char} (h : '\n' ∈ sv) :
    ∃ seg rest, '\n' ∉ seg ∧ sv = seg ++ '\n' :: rest := by
  induction sv with
  | nil => cases h
  | cons c cs ih =>
    by_cases hc : c = '\n'
    · exact ⟨[], cs, List.not_mem_nil _, by rw [hc]; rfl⟩
    · obtain ⟨seg, rest, hseg, rfl⟩ := ih ((List.mem_cons.1 h).resolve_left (Ne.symm hc))
      exact ⟨c :: seg, rest, by simp [Ne.symm hc, hseg], rfl⟩

/-! ## The documented result on whole lines -/

theorem prefixFrom_line (b : Bool) {seg : List Char} (hseg : '\n' ∉ seg) :
    prefixFrom pfx b (seg ++ ['\n']) = (if b then pfx else []) ++ (seg ++ ['\n']) := by
  induction seg generalizing b with
  | nil => simp [prefixFrom]
  | cons c cs ih =>
    have hc : c ≠ '\n' := fun h => hseg (by rw [← h]; exact List.mem_cons_self _ _)
    have hc' : (c == '\n') = false := by simp [hc]
    have hcs : '\n' ∉ cs := fun h => hseg (List.mem_cons_of_mem _ h)
    simp [prefixFrom, hc', ih false hcs]

/-- After a newline a line starts, whatever came before. -/
theorem prefixFrom_append_of_newline (b : Bool) {s t : List Char} (hs : s.getLast? = some '\n') :
    prefixFrom pfx b (s ++ t) = prefixFrom pfx b s ++ prefixFrom pfx true t := by
  induction s generalizing b with
  | nil => cases hs
  | cons c cs ih =>
    cases cs with
    | nil => simp only [List.getLast?_singleton, Option.some.injEq] at hs; subst hs; simp [prefixFrom]
    | cons c' cs =>
      have hs' : (c' :: cs).getLast? = some '\n' := by rwa [List.getLast?_cons_cons] at hs
      rw [List.cons_append, prefixFrom, prefixFrom, ih _ hs']
      simp

/-- **A chunk that ends with a newline** is prefixed line by line. -/
theorem chunkLoop_lineAligned {sv : List Char} (out : List Char)
    (hsv : sv = [] ∨ sv.getLast? = some '\n') :
    chunkLoop pfx sv out true = (out ++ prefixFrom pfx true sv, true) := by
  by_cases hn : '\n' ∈ sv
  · obtain ⟨seg, rest, hseg, hsplit⟩ := exists_first_newline hn
    rw [hsplit] at hsv ⊢
    have hrest : rest = [] ∨ rest.getLast? = some '\n' := by
      rcases hsv with h | h
      · simp at h
      · cases rest with
        | nil => exact .inl rfl
        | cons r rs => exact .inr (by simpa [List.getLast?_append] using h)
    rw [chunkLoop_newline true hseg, chunkLoop_lineAligned _ hrest,
      show seg ++ '\n' :: rest = (seg ++ ['\n']) ++ rest by simp,
      prefixFrom_append_of_newline true (by simp), prefixFrom_line true hseg]
    simp
  · rw [chunkLoop_tail true hn]
    rcases hsv with rfl | h
    · simp [prefixFrom]
    · exact absurd (List.mem_of_getLast?_eq_some h) hn
termination_by sv.length
decreasing_by simp [hsplit]; omega

/-! ## The reader over a sequence of reads -/

/-- **A line that starts in the tail of a read loses its prefix.** Read whole,
`"a\nb\n"` comes out as `prefixLines` says; read as `"a\nb"` then `"\n"`, the
line `b` has no prefix. -/
theorem fdToString_tail_unprefixed :
    readerOutput "- ".toList ["a\nb\n".toList] = prefixLines "- ".toList "a\nb\n".toList ∧
      readerOutput "- ".toList ["a\nb".toList, "\n".toList] = "- a\nb\n".toList ∧
      "- a\nb\n".toList ≠ prefixLines "- ".toList "a\nb\n".toList := by
  refine ⟨?_, ?_, by decide⟩ <;> simp [readerOutput, FdReader.onRead, chunkLoop, prefixLines, prefixFrom]

theorem foldl_onRead_empty :
    ∀ (bufs : List (List Char)) (st : FdReader),
      bufs.foldl (FdReader.onRead []) st = { st with out := st.out ++ bufs.flatten }
  | [], _ => by simp
  | b :: bufs, st => by
    rw [List.foldl_cons, foldl_onRead_empty bufs]
    simp [FdReader.onRead]

theorem foldl_onRead_lineAligned (hp : pfx ≠ []) :
    ∀ (bufs : List (List Char)) (out : List Char), (∀ b ∈ bufs, b.getLast? = some '\n') →
      bufs.foldl (FdReader.onRead pfx) ⟨out, true⟩ = ⟨out ++ prefixFrom pfx true bufs.flatten, true⟩
  | [], out, _ => by simp [prefixFrom]
  | b :: bufs, out, hb => by
    have hb₁ := hb b (List.mem_cons_self _ _)
    have hpe : pfx.isEmpty = false := by cases pfx; exacts [absurd rfl hp, rfl]
    have hstep : FdReader.onRead pfx ⟨out, true⟩ b = ⟨out ++ prefixFrom pfx true b, true⟩ := by
      simp [FdReader.onRead, hpe, chunkLoop_lineAligned out (.inr hb₁)]
    rw [List.foldl_cons, hstep, foldl_onRead_lineAligned hp bufs _ (fun b' h => hb b' (List.mem_cons_of_mem _ h)),
      List.flatten_cons, prefixFrom_append_of_newline true hb₁, List.append_assoc]

/-- **Line-aligned reads are prefixed as documented.** With an empty prefix, or
when every read ends with a newline, the reader returns `prefixLines` of the
bytes written, however they were split into reads. -/
theorem readerOutput_lineAligned (bufs : List (List Char))
    (h : pfx = [] ∨ ∀ b ∈ bufs, b.getLast? = some '\n') :
    readerOutput pfx bufs = prefixLines pfx bufs.flatten := by
  by_cases hp : pfx = []
  · subst hp; simp [readerOutput, prefixLines, foldl_onRead_empty]
  · simp [readerOutput, prefixLines, hp, foldl_onRead_lineAligned hp bufs [] (h.resolve_left hp)]

/-- The bytes of `fdToString_tail_unprefixed`, read one line at a time. -/
theorem readerOutput_lineAligned_lines :
    readerOutput "- ".toList ["a\n".toList, "b\n".toList] = prefixLines "- ".toList "a\nb\n".toList :=
  readerOutput_lineAligned _ (.inr (by decide))

end AudioUtils
