import Mathlib.Data.List.Basic

/-!
# The reader task of `FdToString::createWriter`

The reader polls the pipe until the deadline and appends what each `read`
returns to `out`. With a non-empty prefix it puts the prefix before every line:
for each newline left in the chunk, the prefix (if a line starts here) and the
text up to and including the newline; then the tail of the chunk, if any. The
flag `requiresPrefix` carries over from one read to the next.

Bytes are `Char`s. Only the successful reads are modelled (`poll` timing out,
an error and a zero-byte read add nothing), each as the list of bytes it returns.
-/

namespace AudioUtils

/-- The inner loop over `sv`, the rest of a chunk: `sv.find('\n')`, the prefix
if `requiresPrefix`, the text through the newline, and again; then a
non-empty tail, after which no prefix is pending. Only the termination proof
reads `_hfind`. -/
def chunkLoop (pfx : List Char) (sv out : List Char) (requiresPrefix : Bool) : List Char × Bool :=
  match _hfind : sv.findIdx? (· == '\n') with
  | some ind =>
    chunkLoop pfx (sv.drop (ind + 1))
      (out ++ (if requiresPrefix then pfx else []) ++ sv.take (ind + 1)) true
  | none => if sv.length > 0 then (out ++ sv, false) else (out, requiresPrefix)
termination_by sv.length
decreasing_by
  cases sv with
  | nil => simp at _hfind
  | cons c cs => simp only [List.length_drop, List.length_cons]; omega

/-- The reader task's state between reads. -/
structure FdReader where
  out : List Char := []
  requiresPrefix : Bool := true
  deriving DecidableEq, Repr

/-- One `read` that returned the bytes `buf`. -/
def FdReader.onRead (pfx : List Char) (st : FdReader) (buf : List Char) : FdReader :=
  if !pfx.isEmpty then
    let r := chunkLoop pfx buf st.out st.requiresPrefix
    ⟨r.1, r.2⟩
  else { st with out := st.out ++ buf }

/-- The string the reader task returns after the reads `bufs`. -/
def readerOutput (pfx : List Char) (bufs : List (List Char)) : List Char :=
  (bufs.foldl (FdReader.onRead pfx) {}).out

/-! ## The documented result

`createWriter`'s `prefix` "is the prefix string prepended to each new line":
the prefix goes before the first byte and after every newline that another byte
follows. -/

/-- The bytes `s` with the prefix before each byte that starts a line
(`atStart` says whether the first one does). -/
def prefixFrom (pfx : List Char) : Bool → List Char → List Char
  | _, [] => []
  | atStart, c :: cs => (if atStart then pfx else []) ++ c :: prefixFrom pfx (c == '\n') cs

/-- Every line of `s` prefixed; nothing changes for an empty prefix. -/
def prefixLines (pfx s : List Char) : List Char :=
  if pfx.isEmpty then s else prefixFrom pfx true s

end AudioUtils
