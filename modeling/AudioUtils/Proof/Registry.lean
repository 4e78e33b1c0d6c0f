import AudioUtils.Spec.Registry
import Mathlib.Data.List.GetD

/-!
# The registry under tid reuse

* `tidReuse_unregisters`: a reader that still holds the descriptor of an exited
  thread when the OS gives its tid to a new thread makes `add_to_registry` keep
  the stale entry, and the destructor that runs after the reader's release then
  erases the key: the new thread, alive and using mutexes, is no longer in the
  registry. `dyingReuse_unregisters`: the same when the reuse comes after the
  release but before the destructor's `remove_from_registry`.
* `registry_tracks_threads`: if the OS gives out nonzero tids and reuses a tid
  only once every descriptor made for it has been destroyed, every live thread
  that has used a mutex is registered under its tid with its own descriptor.
-/

namespace AudioUtils

namespace Reg

/-! ## Tid reuse while a reader holds the old descriptor -/

/-- Thread 5 uses a mutex; a reader promotes its entry; thread 5 exits; the OS
gives tid 5 to a new thread, which uses a mutex; the reader lets go and the old
descriptor's destructor runs. -/
def tidReuseRun : List RegEvent :=
  [.spawn 5, .firstUse 5, .promote 5, .exit 5, .spawn 5, .firstUse 5, .release 0, .destroy 0]

/-- **Tid reuse unregisters a live thread.** Once the new thread has made its
descriptor (number 1), the registry still maps tid 5 to the old descriptor 0;
after the reader's release and the old descriptor's destructor, tid 5 is not a
key at all. -/
theorem tidReuse_unregisters :
    (∃ r, Reg.init.run (tidReuseRun.take 6) = some r ∧
      r.threads 5 = .usesMutex 1 ∧ r.registry_ 5 = some 0) ∧
    ∃ r, Reg.init.run tidReuseRun = some r ∧ r.threads 5 = .usesMutex 1 ∧ r.registry_ 5 = none :=
  ⟨⟨_, rfl, by decide, by decide⟩, _, rfl, by decide, by decide⟩

/-- The reader lets go before the reuse, but the old descriptor's destructor
runs `remove_from_registry` only after the new thread's `add_to_registry`: the
new thread is again left out. -/
theorem dyingReuse_unregisters :
    ∃ r, Reg.init.run [.spawn 5, .firstUse 5, .promote 5, .exit 5, .release 0, .spawn 5, .firstUse 5,
      .destroy 0] = some r ∧ r.threads 5 = .usesMutex 1 ∧ r.registry_ 5 = none :=
  ⟨_, rfl, by decide, by decide⟩

/-! ## Safe tid reuse -/

/-- Descriptor `d` is **not yet destroyed**: it has an owner, or its destructor
has not yet erased its entry. -/
def Live (r : Reg) (d : ℕ) : Prop := r.Alive d ∨ d ∈ r.dying

instance (r : Reg) (d : ℕ) : Decidable (r.Live d) := inferInstanceAs (Decidable (_ ∨ _))

/-- The OS gives out nonzero tids, and reuses one only once every descriptor
made for it has been destroyed. -/
def ReuseSafe (r : Reg) : RegEvent → Prop
  | .spawn tid => tid ≠ 0 ∧ ∀ d < r.infos.length, r.Live d → r.tidOf d ≠ tid
  | _ => True

instance (r : Reg) : (e : RegEvent) → Decidable (r.ReuseSafe e)
  | .spawn tid =>
    inferInstanceAs (Decidable (tid ≠ 0 ∧ ∀ d < r.infos.length, r.Live d → r.tidOf d ≠ tid))
  | .firstUse _ | .exit _ | .promote _ | .release _ | .destroy _ => inferInstanceAs (Decidable True)

/-- The states reachable by steps the OS takes as `ReuseSafe` says. -/
inductive SafeReach : Reg → Prop
  | init : SafeReach init
  | step {r r' : Reg} (e : RegEvent) : SafeReach r → r.ReuseSafe e → r.step e = some r' → SafeReach r'

variable {r : Reg} {t t' : ℤ} {d e : ℕ} {x y : OsThread}

/-! ### The state updates -/

@[simp] theorem setThread_registry : (r.setThread t x).registry_ = r.registry_ := rfl
@[simp] theorem setThread_infos : (r.setThread t x).infos = r.infos := rfl
@[simp] theorem setThread_readers : (r.setThread t x).readers = r.readers := rfl
@[simp] theorem setThread_dying : (r.setThread t x).dying = r.dying := rfl
@[simp] theorem newInfo_registry : (r.newInfo t).registry_ = r.registry_ := rfl
@[simp] theorem newInfo_threads : (r.newInfo t).threads = r.threads := rfl
@[simp] theorem newInfo_readers : (r.newInfo t).readers = r.readers := rfl
@[simp] theorem newInfo_dying : (r.newInfo t).dying = r.dying := rfl
@[simp] theorem newInfo_infos : (r.newInfo t).infos = r.infos ++ [t] := rfl
@[simp] theorem addReader_registry : (r.addReader d).registry_ = r.registry_ := rfl
@[simp] theorem addReader_infos : (r.addReader d).infos = r.infos := rfl
@[simp] theorem addReader_threads : (r.addReader d).threads = r.threads := rfl
@[simp] theorem addReader_dying : (r.addReader d).dying = r.dying := rfl
@[simp] theorem addReader_readers : (r.addReader d).readers = d :: r.readers := rfl
@[simp] theorem removeReader_registry : (r.removeReader d).registry_ = r.registry_ := rfl
@[simp] theorem removeReader_infos : (r.removeReader d).infos = r.infos := rfl
@[simp] theorem removeReader_threads : (r.removeReader d).threads = r.threads := rfl
@[simp] theorem removeReader_dying : (r.removeReader d).dying = r.dying := rfl
@[simp] theorem removeReader_readers : (r.removeReader d).readers = r.readers.erase d := rfl
@[simp] theorem drop_registry : (r.drop d).registry_ = r.registry_ := by unfold drop; split_ifs <;> rfl
@[simp] theorem drop_threads : (r.drop d).threads = r.threads := by unfold drop; split_ifs <;> rfl
@[simp] theorem drop_readers : (r.drop d).readers = r.readers := by unfold drop; split_ifs <;> rfl
@[simp] theorem drop_infos : (r.drop d).infos = r.infos := by unfold drop; split_ifs <;> rfl
@[simp] theorem destroy_threads : (r.destroy d).threads = r.threads := by unfold destroy; split_ifs <;> rfl
@[simp] theorem destroy_readers : (r.destroy d).readers = r.readers := by unfold destroy; split_ifs <;> rfl
@[simp] theorem destroy_infos : (r.destroy d).infos = r.infos := by unfold destroy; split_ifs <;> rfl
@[simp] theorem destroy_dying : (r.destroy d).dying = r.dying.erase d := by unfold destroy; split_ifs <;> rfl

/-- A descriptor's `tid_` depends only on `infos`. -/
theorem tidOf_congr {r' : Reg} (h : r'.infos = r.infos) : r'.tidOf = r.tidOf := by
  funext d; simp only [tidOf, h]

@[simp] theorem setThread_tidOf : (r.setThread t x).tidOf = r.tidOf := tidOf_congr setThread_infos

theorem setThread_threads_eq : (r.setThread t x).threads t' = y ↔
    (t' = t ∧ x = y) ∨ (t' ≠ t ∧ r.threads t' = y) := by
  by_cases h : t' = t
  · subst h; simp [setThread]
  · simp [setThread, h]

theorem newInfo_tidOf_lt (he : e < r.infos.length) : (r.newInfo t).tidOf e = r.tidOf e :=
  List.getD_append _ _ _ _ he

theorem newInfo_tidOf_length : (r.newInfo t).tidOf r.infos.length = t := by
  simp [tidOf, newInfo]

/-- Liveness reads only the threads, the readers and `infos`. -/
theorem alive_congr {r' : Reg} (hth : r'.threads = r.threads) (hrd : r'.readers = r.readers)
    (hin : r'.infos = r.infos) : r'.Alive d ↔ r.Alive d := by
  simp only [Alive, hth, hrd, tidOf_congr hin]

theorem alive_drop_iff : (r.drop d).Alive e ↔ r.Alive e := alive_congr drop_threads drop_readers drop_infos

/-- Changing a thread that neither held nor now holds a descriptor changes no
descriptor's liveness. -/
theorem alive_setThread_iff (hold : ∀ e, r.threads t ≠ .usesMutex e) (hnew : ∀ e, x ≠ .usesMutex e) :
    (r.setThread t x).Alive d ↔ r.Alive d := by
  simp only [Alive, setThread_tidOf, setThread_readers]
  rw [setThread_threads_eq]
  constructor
  · rintro ((⟨-, hx⟩ | ⟨-, h⟩) | h)
    exacts [absurd hx (hnew d), .inl h, .inr h]
  · rintro (h | h)
    · exact .inl (.inr ⟨fun he => hold d (he ▸ h), h⟩)
    · exact .inr h

theorem alive_exit_iff : (r.setThread t .absent).Alive d ↔
    (r.tidOf d ≠ t ∧ r.threads (r.tidOf d) = .usesMutex d) ∨ d ∈ r.readers := by
  simp only [Alive, setThread_tidOf, setThread_readers, setThread_threads_eq]
  simp

theorem alive_release_iff (hne : e ≠ d) : (r.removeReader d).Alive e ↔ r.Alive e := by
  simp only [Alive, tidOf, removeReader, List.mem_erase_of_ne hne]

theorem alive_release_imp : (r.removeReader d).Alive e → r.Alive e :=
  Or.imp_right List.mem_of_mem_erase

/-- After `drop d`, the descriptors not yet destroyed are the old ones and `d`. -/
theorem live_drop_iff : (r.drop d).Live e ↔ r.Live e ∨ e = d := by
  unfold Live drop
  by_cases ha : r.Alive d
  · rw [if_pos ha]
    exact ⟨.inl, fun h => h.elim id fun he => .inl (he ▸ ha)⟩
  · rw [if_neg ha, alive_congr rfl rfl rfl, List.mem_cons]
    tauto

/-- `drop` makes dying only a descriptor with no owner. -/
theorem drop_dying (hd : d < r.infos.length) (h : ∀ e ∈ r.dying, e < r.infos.length ∧ ¬ r.Alive e) :
    ∀ e ∈ (r.drop d).dying, e < r.infos.length ∧ ¬ (r.drop d).Alive e := by
  intro e he
  rw [alive_drop_iff]
  unfold drop at he
  split_ifs at he with ha
  · exact h e he
  · rcases List.mem_cons.1 he with rfl | he
    exacts [⟨hd, ha⟩, h e he]

theorem destroy_registry_of_ne (ht : t ≠ r.tidOf d) : (r.destroy d).registry_ t = r.registry_ t := by
  unfold destroy removeFromRegistry
  split_ifs <;> simp [Function.update_noteq ht]

theorem destroy_registry_some (hd : r.tidOf d ≠ 0) (h : (r.destroy d).registry_ t = some e) :
    t ≠ r.tidOf d ∧ r.registry_ t = some e := by
  by_cases ht : t = r.tidOf d
  · simp [destroy, hd, removeFromRegistry, ht] at h
  · exact ⟨ht, (destroy_registry_of_ne ht).symm.trans h⟩

/-! ### The invariant -/

/-- **The registry invariant.** Every thread that uses a mutex is registered with
its own descriptor (`registered`); a dying descriptor has no owner; an entry
names a descriptor made for its key and not yet destroyed; and at most one such
descriptor exists per tid, none while the tid's thread has not yet used a
mutex. -/
structure Inv (r : Reg) : Prop where
  registered : ∀ t d, r.threads t = .usesMutex d → r.registry_ t = some d
  thread : ∀ t d, r.threads t = .usesMutex d → d < r.infos.length ∧ r.tidOf d = t
  readers : ∀ d ∈ r.readers, d < r.infos.length
  dying : ∀ d ∈ r.dying, d < r.infos.length ∧ ¬ r.Alive d
  infos_ne : ∀ t ∈ r.infos, t ≠ 0
  absent_zero : r.threads 0 = .absent
  entry : ∀ t d, r.registry_ t = some d → r.tidOf d = t ∧ r.Live d
  unique : ∀ d d', r.Live d → r.Live d' → r.tidOf d = r.tidOf d' → d = d'
  fresh : ∀ t, r.threads t = .running → ∀ d, r.Live d → r.tidOf d ≠ t

theorem Inv.lt (h : r.Inv) (ha : r.Live d) : d < r.infos.length :=
  ha.elim (·.elim (fun ht => (h.thread _ _ ht).1) (h.readers d)) fun hd => (h.dying d hd).1

theorem Inv.tidOf_ne (h : r.Inv) (ha : r.Live d) : r.tidOf d ≠ 0 := by
  have hd := h.lt ha
  rw [tidOf, List.getD_eq_getElem _ _ hd]
  exact h.infos_ne _ (List.getElem_mem hd)

theorem Inv.ne_zero (h : r.Inv) (ht : r.threads t ≠ .absent) : t ≠ 0 := by
  rintro rfl; exact ht h.absent_zero

theorem Inv.registry_none (h : r.Inv) (ht : r.threads t = .running) : r.registry_ t = none := by
  cases hr : r.registry_ t with
  | none => rfl
  | some d =>
    obtain ⟨hd, ha⟩ := h.entry t d hr
    exact absurd hd (h.fresh t ht d ha)

/-- **A step that keeps the registry, the descriptors and the set of those not
yet destroyed keeps the invariant**, when no thread starts using a mutex, no
thread runs on the tid of a descriptor not yet destroyed, and a dying
descriptor has no owner. -/
theorem Inv.frame {r' : Reg} (h : r.Inv) (hreg : r'.registry_ = r.registry_) (hin : r'.infos = r.infos)
    (hlive : ∀ e, r'.Live e ↔ r.Live e)
    (huses : ∀ t e, r'.threads t = .usesMutex e → r.threads t = .usesMutex e)
    (hzero : r'.threads 0 = .absent)
    (hfresh : ∀ t, r'.threads t = .running → ∀ e, r.Live e → r.tidOf e ≠ t)
    (hread : ∀ e ∈ r'.readers, e < r.infos.length)
    (hdying : ∀ e ∈ r'.dying, e < r.infos.length ∧ ¬ r'.Alive e) : r'.Inv := by
  have htid := tidOf_congr hin
  refine ⟨fun t e h' => hreg ▸ h.registered t e (huses t e h'), fun t e h' => ?_, hin ▸ hread,
    hin ▸ hdying, hin ▸ h.infos_ne, hzero, fun t e h' => ?_,
    fun e e' a a' hee => h.unique e e' ((hlive e).1 a) ((hlive e').1 a') (htid ▸ hee),
    fun t ht e a => htid ▸ hfresh t ht e ((hlive e).1 a)⟩
  · rw [htid, hin]; exact h.thread t e (huses t e h')
  · obtain ⟨he, ha⟩ := h.entry t e (hreg ▸ h')
    exact ⟨htid ▸ he, (hlive e).2 ha⟩

/-! ### Each step keeps it -/

/-- A dying descriptor stays without an owner when a step only takes owners away. -/
theorem Inv.dying_of_alive_imp {r' : Reg} (h : r.Inv) (hal : ∀ e, r'.Alive e → r.Alive e) :
    ∀ e ∈ r.dying, e < r.infos.length ∧ ¬ r'.Alive e :=
  fun e he => ⟨(h.dying e he).1, mt (hal e) (h.dying e he).2⟩

/-- Threads other than `t` keep their state under `setThread t`. -/
theorem setThread_other (hx : x ≠ y) (h' : (r.setThread t x).threads t' = y) : r.threads t' = y :=
  (setThread_threads_eq.1 h').elim (fun h => absurd h.2 hx) And.right

theorem Inv.spawn (h : r.Inv) (ht : r.threads t = .absent) (hs : r.ReuseSafe (.spawn t)) :
    (r.setThread t .running).Inv := by
  have hal : ∀ d, (r.setThread t .running).Alive d ↔ r.Alive d :=
    fun d => alive_setThread_iff (by simp [ht]) (by simp)
  refine h.frame rfl rfl (fun e => or_congr_left (hal e)) (fun t' e => setThread_other (by simp)) ?_
    (fun t' ht' e ha => ?_) h.readers ?_
  · simpa [setThread, Function.update_noteq (Ne.symm hs.1)] using h.absent_zero
  · rcases setThread_threads_eq.1 ht' with ⟨rfl, -⟩ | ⟨-, ht'⟩
    · exact hs.2 e (h.lt ha) ha
    · exact h.fresh t' ht' e ha
  · exact h.dying_of_alive_imp fun e => (hal e).1

theorem Inv.exitRunning (h : r.Inv) (ht : r.threads t = .running) : (r.setThread t .absent).Inv := by
  have hal : ∀ d, (r.setThread t .absent).Alive d ↔ r.Alive d :=
    fun d => alive_setThread_iff (by simp [ht]) (by simp)
  refine h.frame rfl rfl (fun e => or_congr_left (hal e)) (fun t' e => setThread_other (by simp)) ?_
    (fun t' ht' => h.fresh t' (setThread_other (by simp) ht')) h.readers ?_
  · exact setThread_threads_eq.2 (if h0 : (0 : ℤ) = t then .inl ⟨h0, rfl⟩ else .inr ⟨h0, h.absent_zero⟩)
  · exact h.dying_of_alive_imp fun e => (hal e).1

theorem Inv.exitUses (h : r.Inv) (ht : r.threads t = .usesMutex d) :
    ((r.setThread t .absent).drop d).Inv := by
  obtain ⟨hdl, htid⟩ := h.thread t d ht
  have hsub : ∀ e, (r.setThread t .absent).Alive e → r.Alive e :=
    fun e ha => (alive_exit_iff.1 ha).imp_left And.right
  have hlive : ∀ e, ((r.setThread t .absent).drop d).Live e ↔ r.Live e := by
    intro e
    rw [live_drop_iff]
    constructor
    · rintro ((ha | ha) | rfl)
      exacts [.inl (hsub e ha), .inr ha, .inl (.inl (htid ▸ ht))]
    · rintro ((ha | ha) | ha)
      · by_cases hte : r.tidOf e = t
        · rw [hte, ht] at ha; exact .inr (OsThread.usesMutex.inj ha).symm
        · exact .inl (.inl (alive_exit_iff.2 (.inl ⟨hte, ha⟩)))
      · exact .inl (.inl (alive_exit_iff.2 (.inr ha)))
      · exact .inl (.inr ha)
  refine h.frame (by simp) (by simp) hlive (fun t' e h' => setThread_other (by simp) (drop_threads ▸ h'))
    ?_ (fun t' ht' => h.fresh t' (setThread_other (by simp) (drop_threads ▸ ht'))) (by simpa using h.readers)
    (drop_dying (r := r.setThread t .absent) hdl (h.dying_of_alive_imp hsub))
  simp only [drop_threads]
  exact setThread_threads_eq.2 (if h0 : (0 : ℤ) = t then .inl ⟨h0, rfl⟩ else .inr ⟨h0, h.absent_zero⟩)

theorem Inv.promote (h : r.Inv) (ha : r.Alive d) : (r.addReader d).Inv := by
  have hal : ∀ e, (r.addReader d).Alive e ↔ r.Alive e := by
    intro e
    show _ ∨ e ∈ d :: r.readers ↔ _
    rw [List.mem_cons]
    constructor
    · rintro (h' | rfl | h')
      exacts [.inl h', ha, .inr h']
    · exact Or.imp_right Or.inr
  refine h.frame rfl rfl (fun e => or_congr_left (hal e)) (fun _ _ => id) h.absent_zero h.fresh
    (fun e he => ?_) ?_
  · rcases List.mem_cons.1 he with rfl | he
    exacts [h.lt (.inl ha), h.readers e he]
  · exact h.dying_of_alive_imp fun e => (hal e).1

theorem Inv.release (h : r.Inv) (hd : d ∈ r.readers) : ((r.removeReader d).drop d).Inv := by
  have hlive : ∀ e, ((r.removeReader d).drop d).Live e ↔ r.Live e := by
    intro e
    rw [live_drop_iff]
    constructor
    · rintro ((ha | ha) | rfl)
      exacts [.inl (alive_release_imp ha), .inr ha, .inl (.inr hd)]
    · intro ha
      by_cases hed : e = d
      · exact .inr hed
      · exact .inl (ha.imp_left (alive_release_iff hed).2)
  refine h.frame (by simp) (by simp) hlive (fun t' e h' => by simpa using h') (by simpa using h.absent_zero)
    (fun t' ht' => h.fresh t' (by simpa using ht'))
    (fun e he => h.readers e (List.mem_of_mem_erase (by simpa using he)))
    (drop_dying (r := r.removeReader d) (h.readers d hd) (h.dying_of_alive_imp fun _ => alive_release_imp))

theorem Inv.destroy (h : r.Inv) (hd : d ∈ r.dying) : (r.destroy d).Inv := by
  have htid : (r.destroy d).tidOf = r.tidOf := tidOf_congr destroy_infos
  have hal : ∀ e, (r.destroy d).Alive e ↔ r.Alive e :=
    fun e => alive_congr destroy_threads destroy_readers destroy_infos
  have hsub : ∀ e, (r.destroy d).Live e → r.Live e :=
    fun e ha => ha.imp (hal e).1 fun he => List.mem_of_mem_erase (destroy_dying ▸ he)
  have hd0 : r.tidOf d ≠ 0 := h.tidOf_ne (.inr hd)
  /- A thread that uses a mutex is not on the dying descriptor's tid. -/
  have hne : ∀ t e, r.threads t = .usesMutex e → t ≠ r.tidOf d := by
    rintro t e ht rfl
    obtain ⟨-, hte⟩ := h.thread _ e ht
    obtain rfl := h.unique e d (.inl (.inl (hte ▸ ht))) (.inr hd) hte
    exact (h.dying e hd).2 (.inl (hte ▸ ht))
  refine ⟨fun t e h' => ?_, by simpa [htid] using h.thread, by simpa using h.readers,
    fun e he => ?_, by simpa using h.infos_ne, by simpa using h.absent_zero, fun t e h' => ?_,
    fun e e' a a' hee => h.unique e e' (hsub e a) (hsub e' a') (by rwa [htid] at hee),
    fun t ht e a => htid ▸ h.fresh t (by simpa using ht) e (hsub e a)⟩
  · rw [destroy_threads] at h'
    rw [destroy_registry_of_ne (hne t e h')]
    exact h.registered t e h'
  · obtain ⟨hl, hna⟩ := h.dying e (List.mem_of_mem_erase (destroy_dying ▸ he))
    exact ⟨by simpa using hl, mt (hal e).1 hna⟩
  · obtain ⟨ht, hr⟩ := destroy_registry_some hd0 h'
    obtain ⟨he, ha⟩ := h.entry t e hr
    refine ⟨htid ▸ he, ha.imp (hal e).2 fun hed => ?_⟩
    rw [destroy_dying]
    exact List.mem_erase_of_ne (by rintro rfl; exact ht he.symm) |>.2 hed

/-- After `t`'s first use, the live descriptors are the old ones and the new
one, number `r.infos.length`. -/
theorem Inv.alive_firstUse (h : r.Inv) (ht : r.threads t = .running) (e : ℕ) :
    ((r.newInfo t).setThread t (.usesMutex r.infos.length)).Alive e ↔ r.Alive e ∨ e = r.infos.length := by
  constructor
  · rintro (ha | ha)
    · rcases setThread_threads_eq.1 ha with ⟨-, he⟩ | ⟨-, ha⟩
      · exact .inr (OsThread.usesMutex.inj he).symm
      · obtain ⟨-, he⟩ := h.thread _ e ha
        exact .inl (.inl (by rw [he]; exact ha))
    · exact .inl (.inr ha)
  · rintro ((ha | ha) | rfl)
    · left
      rw [setThread_tidOf, newInfo_tidOf_lt (h.lt (.inl (.inl ha)))]
      exact setThread_threads_eq.2 (.inr ⟨h.fresh t ht e (.inl (.inl ha)), ha⟩)
    · exact .inr ha
    · left
      rw [setThread_tidOf, newInfo_tidOf_length]
      exact setThread_threads_eq.2 (.inl ⟨rfl, rfl⟩)

theorem Inv.firstUse (h : r.Inv) (ht : r.threads t = .running) :
    (((r.newInfo t).setThread t (.usesMutex r.infos.length)).addToRegistry t r.infos.length).Inv := by
  set n := r.infos.length
  set r₁ := (r.newInfo t).setThread t (.usesMutex n)
  have ht0 : t ≠ 0 := h.ne_zero (by simp [ht])
  have hadd : r₁.addToRegistry t n = { r₁ with registry_ := Function.update r.registry_ t (some n) } := by
    simp [addToRegistry, r₁, h.registry_none ht]
  have htid : ∀ e, e < n → r₁.tidOf e = r.tidOf e := fun e he => by
    rw [setThread_tidOf, newInfo_tidOf_lt he]
  have htidn : r₁.tidOf n = t := by rw [setThread_tidOf, newInfo_tidOf_length]
  have hthr : ∀ t' e, r₁.threads t' = .usesMutex e →
      (t' = t ∧ e = n) ∨ (t' ≠ t ∧ r.threads t' = .usesMutex e) := by
    intro t' e h'
    rcases setThread_threads_eq.1 h' with ⟨rfl, he⟩ | ⟨hne, h'⟩
    · cases he; exact .inl ⟨rfl, rfl⟩
    · exact .inr ⟨hne, h'⟩
  have halive : ∀ e, r₁.Alive e ↔ r.Alive e ∨ e = n := h.alive_firstUse ht
  have hlive : ∀ e, r₁.Live e ↔ r.Live e ∨ e = n := fun e => by
    simp only [Live, halive, r₁, setThread_dying, newInfo_dying]
    tauto
  have hal : ∀ e, (r₁.addToRegistry t n).Live e ↔ r₁.Live e := fun e => by rw [hadd]; rfl
  have htid₂ : (r₁.addToRegistry t n).tidOf = r₁.tidOf := by rw [hadd]; rfl
  have hthr₂ : (r₁.addToRegistry t n).threads = r₁.threads := by rw [hadd]
  refine ⟨fun t' e h' => ?_, fun t' e h' => ?_, fun e he => ?_, fun e he => ?_, ?_, ?_, fun t' e h' => ?_,
    fun e e' a a' hee => ?_, fun t' ht' e a => ?_⟩
  · rw [hthr₂] at h'
    rw [hadd]
    rcases hthr t' e h' with ⟨rfl, rfl⟩ | ⟨hne, h'⟩
    · simp
    · simpa [Function.update_noteq hne] using h.registered t' e h'
  · rw [hthr₂] at h'
    rw [htid₂, hadd]
    rcases hthr t' e h' with ⟨rfl, rfl⟩ | ⟨-, h'⟩
    · exact ⟨by simp [r₁, n], htidn⟩
    · obtain ⟨hlt, he⟩ := h.thread t' e h'
      exact ⟨by simp [r₁]; omega, (htid e hlt).trans he⟩
  · rw [hadd] at he ⊢
    simp only [r₁, setThread_readers, newInfo_readers] at he
    simp only [r₁, setThread_infos, newInfo_infos, List.length_append, List.length_singleton]
    exact Nat.lt_succ_of_lt (h.readers e he)
  · rw [hadd] at he ⊢
    simp only [r₁, setThread_dying, newInfo_dying] at he
    obtain ⟨hl, hna⟩ := h.dying e he
    refine ⟨by simp [r₁]; omega, fun ha => ((halive e).1 ha).elim hna fun he => by omega⟩
  · rw [hadd]
    intro x hx
    simp only [r₁, setThread_infos, newInfo_infos, List.mem_append, List.mem_singleton] at hx
    rcases hx with hx | rfl
    exacts [h.infos_ne x hx, ht0]
  · rw [hthr₂]
    exact setThread_threads_eq.2 (.inr ⟨Ne.symm ht0, h.absent_zero⟩)
  · rw [htid₂, hal]
    rw [hadd] at h'
    by_cases hne : t' = t
    · subst hne; simp at h'; subst h'; exact ⟨htidn, (hlive n).2 (.inr rfl)⟩
    · simp only [Function.update_noteq hne] at h'
      obtain ⟨he, ha⟩ := h.entry t' e h'
      exact ⟨(htid e (h.lt ha)).trans he, (hlive e).2 (.inl ha)⟩
  · rw [hal, hlive] at a a'
    rw [htid₂] at hee
    rcases a with a | rfl <;> rcases a' with a' | rfl
    · exact h.unique e e' a a' (by rwa [htid e (h.lt a), htid e' (h.lt a')] at hee)
    · rw [htid e (h.lt a), htidn] at hee; exact absurd hee (h.fresh t ht e a)
    · rw [htid e' (h.lt a'), htidn] at hee; exact absurd hee.symm (h.fresh t ht e' a')
    · rfl
  · rw [hthr₂] at ht'
    rw [hal, hlive] at a
    rw [htid₂]
    rcases setThread_threads_eq.1 ht' with ⟨-, he⟩ | ⟨hne, ht'⟩
    · cases he
    · simp only [newInfo_threads] at ht'
      rcases a with a | rfl
      · rw [htid e (h.lt a)]; exact h.fresh t' ht' e a
      · rw [htidn]; exact Ne.symm hne

theorem Inv.init : init.Inv where
  registered _ _ h := by cases h
  thread _ _ h := by cases h
  readers _ h := by cases h
  dying _ h := by cases h
  infos_ne _ h := by cases h
  absent_zero := rfl
  entry _ _ h := by cases h
  unique _ _ h := by rcases h with (h | h) | h <;> cases h
  fresh _ h := by cases h

/-- **Every `ReuseSafe` step keeps the invariant.** -/
theorem Inv.step {r' : Reg} {ev : RegEvent} (h : r.Inv) (hs : r.ReuseSafe ev) (hr : r.step ev = some r') :
    r'.Inv := by
  cases ev with
  | spawn t =>
    simp only [Reg.step] at hr
    split at hr
    · cases hr; exact h.spawn ‹_› hs
    · cases hr
  | firstUse t =>
    simp only [Reg.step] at hr
    split at hr
    · cases hr; exact h.firstUse ‹_›
    · cases hr
  | exit t =>
    simp only [Reg.step] at hr
    split at hr
    · cases hr
    · cases hr; exact h.exitRunning ‹_›
    · cases hr; exact h.exitUses ‹_›
  | promote t =>
    simp only [Reg.step] at hr
    split at hr
    · split at hr
      · cases hr; exact h.promote ‹_›
      · cases hr
    · cases hr
  | release d =>
    simp only [Reg.step] at hr
    split at hr
    · cases hr; exact h.release ‹_›
    · cases hr
  | destroy d =>
    simp only [Reg.step] at hr
    split at hr
    · cases hr; exact h.destroy ‹_›
    · cases hr

theorem SafeReach.inv (h : r.SafeReach) : r.Inv := by
  induction h with
  | init => exact Inv.init
  | step _ _ hs hr ih => exact ih.step hs hr

/-- **With safe tid reuse the registry tracks the threads.** If the OS gives out
nonzero tids and reuses a tid only once every descriptor made for it has been
destroyed (its destructor has run `remove_from_registry`), then in every
reachable state every live thread that has used a mutex is a key of the
registry, mapped to its own descriptor. -/
theorem registry_tracks_threads (h : r.SafeReach) (ht : r.threads t = .usesMutex d) :
    r.registry_ t = some d :=
  h.inv.registered t d ht

/-- The run of `tidReuse_unregisters` with the reader's release and the old
descriptor's destructor moved before the reuse: the new thread of tid 5 is
registered with its descriptor 1. -/
theorem registry_tracks_threads_safeReuse :
    ∃ r : Reg, r.SafeReach ∧ r.threads 5 = .usesMutex 1 ∧ r.registry_ 5 = some 1 :=
  let h : SafeReach _ :=
    .step (.firstUse 5) (.step (.spawn 5) (.step (.destroy 0) (.step (.release 0) (.step (.exit 5)
      (.step (.promote 5) (.step (.firstUse 5) (.step (.spawn 5) .init (by decide) rfl) (by decide) rfl)
        (by decide) rfl) (by decide) rfl) (by decide) rfl) (by decide) rfl) (by decide) rfl) (by decide) rfl
  ⟨_, h, rfl, registry_tracks_threads h rfl⟩

end Reg

end AudioUtils
