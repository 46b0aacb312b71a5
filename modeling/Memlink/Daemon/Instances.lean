import Memlink.Daemon.PidFile

/-!
# Starting beside other instances

What the calls of `Memlink.Daemon.PidFile` make of several instances: a start that nobody
disturbs succeeds unless a living instance has the file locked, and one instance at most is live
as long as no call comes between the `open` and the `lockf`, or the `close` and the `unlink`, of
another.
-/

namespace Memlink

open Transition CString LockFile

/-! ### A start on its own -/

/-- The calls of a start that nothing goes wrong with. -/
def startCalls (p : Pid) : List (Pid × InstanceAct) :=
  [(p, .daemon true), (p, .openFile true), (p, .lockf true), (p, .ftruncate true),
    (p, .write (some pidBufMax))]

/-- No instance has the file at the path locked; it may be there from one that died. -/
def PathFree (s : PidState) : Prop :=
  ∀ q i, s.fs.path = some i → (s.pc q).lockedFd ≠ some i

/-- The instance serves, with its pid in the file at the path. -/
def ServesAtPath (s : PidState) (p : Pid) : Prop :=
  ∃ fd, s.pc p = .serving fd pidBufMax ∧ s.fs.path = some fd ∧
    (s.fs.inode fd).bytes = printNat p

section Start

variable (s : PidState) (p : Pid) (fs fs' : FileSystem Pid) (pc pc' : InstancePc)

/-- The instance that moves is where it moved to. -/
@[simp] theorem PidState.move_pc : (s.move p fs pc).pc p = pc := by simp [PidState.move]

/-- A move leaves the files it says. -/
@[simp] theorem PidState.move_fs : (s.move p fs pc).fs = fs := rfl

/-- Of two moves of one instance the second one counts. -/
@[simp] theorem PidState.move_move : (s.move p fs pc).move p fs' pc' = s.move p fs' pc' := by
  simp [PidState.move]

/-- A process that is back where it was, with the files as they were, has changed nothing. -/
theorem PidState.move_self : s.move p s.fs (s.pc p) = s := by simp [PidState.move]

end Start

/-- Every pid of 32 bits can be formatted. -/
theorem length_printNat_le {p : Pid} (h : p < 2 ^ 31) : (printNat p).length ≤ pidBufMax := by
  unfold printNat pidBufMax
  rw [List.length_map, Nat.length_toDigits_le_iff (by decide) (by decide)]
  exact Nat.lt_of_lt_of_le h (by decide)

private theorem run_open {s : PidState} {p : Pid} (hgone : s.pc p = .gone) :
    run pidStep s [(p, .daemon true), (p, .openFile true)] =
      s.move p s.fs.openCreate.1 (.opened s.fs.openCreate.2) := by
  simp [pidStep, hgone]

private theorem run_locked {s : PidState} {p : Pid} (hp : p < 2 ^ 31) {fd : Nat}
    (hpc : s.pc p = .opened fd) (hfree : (s.fs.inode fd).owner = none) :
    run pidStep s [(p, .lockf true), (p, .ftruncate true), (p, .write (some pidBufMax))] =
      s.move p (((s.fs.setOwner fd (some p)).truncate fd).writeStart fd (printNat p))
        (.serving fd pidBufMax) := by
  have hlen := length_printNat_le hp
  have htake := List.take_of_length_le hlen
  simp [pidStep, hpc, hfree, FileSystem.tryLock, writePid, hlen, htake]

private theorem run_refused {s : PidState} {p q : Pid} {fd : Nat} (hpc : s.pc p = .opened fd)
    (hown : (s.fs.inode fd).owner = some q) (hne : q ≠ p) :
    run pidStep s [(p, .lockf true), (p, .ftruncate true), (p, .write (some pidBufMax))] =
      s.move p s.fs .gone := by
  have hclose := s.fs.close_eq_self (p := p) (i := fd) (by simpa [hown] using hne)
  simp [pidStep, hpc, hown, FileSystem.tryLock, hne, hclose]

private theorem open_free {s : PidState} (h : PidInv s) (hfree : PathFree s) :
    (s.fs.openCreate.1.inode s.fs.openCreate.2).owner = none := by
  rw [s.fs.openCreate_owner h.next_free]
  rcases s.fs.openCreate_cases with ⟨hpath, _⟩ | ⟨_, he⟩
  · cases hown : (s.fs.inode s.fs.openCreate.2).owner with
    | none => rfl
    | some q => exact absurd ((h.owner_iff _ q).mp hown) (hfree q _ hpath)
  · rw [he]
    exact h.next_free

/-- In every run, an instance that then starts undisturbed serves with its pid in the file at the
path if no other has that file locked, whatever is left in it by instances that died; otherwise
it is refused and everything is as before. -/
theorem start_alone (acts : List (Pid × InstanceAct)) (p : Pid) (hp : p < 2 ^ 31)
    (hgone : (run pidStep PidState.init acts).pc p = .gone) :
    (PathFree (run pidStep PidState.init acts) ∧
        ServesAtPath (run pidStep PidState.init (acts ++ startCalls p)) p) ∨
      (¬ PathFree (run pidStep PidState.init acts) ∧
        run pidStep PidState.init (acts ++ startCalls p) = run pidStep PidState.init acts) := by
  have hinv := pidInv_run acts
  rw [run_append]
  generalize run pidStep PidState.init acts = s at hgone hinv ⊢
  have hsplit : startCalls p = [(p, .daemon true), (p, .openFile true)] ++
    [(p, .lockf true), (p, .ftruncate true), (p, .write (some pidBufMax))] := rfl
  rw [hsplit, run_append, run_open hgone]
  by_cases hfree : PathFree s
  · refine .inl ⟨hfree, s.fs.openCreate.2, ?_⟩
    rw [run_locked hp (PidState.move_pc ..) (by simpa using open_free hinv hfree)]
    refine ⟨by simp, ?_, ?_⟩
    · simpa [FileSystem.writeStart, FileSystem.truncate] using s.fs.openCreate_path
    · simp [FileSystem.writeStart, FileSystem.truncate, FileSystem.setBytes_bytes]
  · refine .inr ⟨hfree, ?_⟩
    obtain ⟨q, i, hpath, hq⟩ : ∃ q i, s.fs.path = some i ∧ (s.pc q).lockedFd = some i := by
      simpa [PathFree] using hfree
    have hne : q ≠ p := by
      rintro rfl
      rw [hgone] at hq
      cases hq
    have hopen : s.fs.openCreate = (s.fs, i) := by simp [FileSystem.openCreate, hpath]
    rw [hopen, run_refused (PidState.move_pc ..) (by simpa using (hinv.owner_iff i q).mpr hq) hne]
    simpa [hgone] using s.move_self p

/-- An instance is killed while it serves; its pid file does not keep the next one from
starting. -/
theorem start_alone_after_kill :
    ServesAtPath (run pidStep PidState.init
      (startCalls 1234 ++ [(1234, .kill)] ++ startCalls 7)) 7 := by
  have h := start_alone (startCalls 1234 ++ [(1234, .kill)]) 7 (by decide) (by decide)
  rcases h with ⟨_, h⟩ | ⟨_, h⟩
  · exact h
  · exact absurd (congrArg (fun s ↦ s.pc 7) h) (by decide)

/-! ### One instance -/

/-- The file of an instance that has locked it and has not unlinked it. -/
def InstancePc.liveFd : InstancePc → Option Nat
  | .locked fd => some fd
  | .cleared fd => some fd
  | .serving fd _ => some fd
  | .stopping fd _ => some fd
  | _ => none

/-- A live instance holds its lock. -/
theorem InstancePc.lockedFd_of_liveFd {pc : InstancePc} {i : Nat} (h : pc.liveFd = some i) :
    pc.lockedFd = some i := by
  cases pc <;> simp_all [lockedFd, liveFd]

/-- At most one instance is live, and its file is the one at the path. -/
def Sole (s : PidState) : Prop :=
  ∀ p i, (s.pc p).liveFd = some i →
    s.fs.path = some i ∧ ∀ q j, (s.pc q).liveFd = some j → q = p

/-- The next call of the instance is `unlink`. -/
def InstancePc.unlinks : InstancePc → Bool
  | .stopping _ _ => true
  | .failed => true
  | _ => false

/-- Where another instance can come between: a file is locked while it is still at the path, and
the path is not unlinked while the file of another live instance is at it. -/
def Guarded (s : PidState) : Pid × InstanceAct → Prop
  | (p, .lockf true) =>
    ∀ fd, s.pc p = .opened fd → (s.fs.inode fd).owner = none → s.fs.path = some fd
  | (p, .unlink true) =>
    (s.pc p).unlinks = true → ∀ q i, s.fs.path = some i → (s.pc q).liveFd = some i → q = p
  | _ => True

/-- Locks are exclusive, so live instances whose files are at the path are one. -/
theorem PidInv.sole {s : PidState} (h : PidInv s)
    (hpath : ∀ p i, (s.pc p).liveFd = some i → s.fs.path = some i) : Sole s := by
  intro p i hp
  refine ⟨hpath p i hp, fun q j hq ↦ ?_⟩
  obtain rfl : i = j := Option.some.inj ((hpath p i hp).symm.trans (hpath q j hq))
  exact h.locked_unique (InstancePc.lockedFd_of_liveFd hq) (InstancePc.lockedFd_of_liveFd hp)

section Sole

variable {s : PidState} {p : Pid} {fs : FileSystem Pid} {pc : InstancePc} {a : InstanceAct}

private theorem path_others (hs : Sole s) (hm : Moves s.fs p a (s.pc p) fs pc)
    (hok : Guarded s (p, a)) {q : Pid} (hq : q ≠ p) {i : Nat} (hi : (s.pc q).liveFd = some i) :
    fs.path = some i := by
  have hpath := (hs q i hi).1
  generalize hpc : s.pc p = pc₀ at hm
  cases hm with
  | openFile =>
    rcases s.fs.openCreate_cases with ⟨_, he⟩ | ⟨hnone, _⟩
    · rw [he]
      exact hpath
    · exact absurd (hnone.symm.trans hpath) nofun
  | unlink => exact absurd (hok (by rw [hpc]; rfl) q i hpath hi) hq
  | cleanUp => exact absurd (hok (by rw [hpc]; rfl) q i hpath hi) hq
  | giveUp => simpa using hpath
  | leave => simpa using hpath
  | _ => exact hpath

private theorem path_own (h : PidInv s) (hs : Sole s) (hm : Moves s.fs p a (s.pc p) fs pc)
    (hok : Guarded s (p, a)) {i : Nat} (hi : pc.liveFd = some i) : fs.path = some i := by
  generalize hpc : s.pc p = pc₀ at hm
  have hlive : pc₀.liveFd = some i → s.fs.path = some i := fun hi₀ ↦ (hs p i (hpc ▸ hi₀)).1
  cases hm with
  | lock fd hfree =>
    obtain rfl : fd = i := Option.some.inj hi
    refine hok fd hpc (hfree.resolve_right fun hown ↦ ?_)
    rw [h.owner_iff, hpc] at hown
    cases hown
  | truncate fd => exact hlive hi
  | write fd n => exact hlive hi
  | stop fd n => exact hlive hi
  | _ => cases hi

private theorem guarded_of_sole_lock {fd : Nat} (hpc : s.pc p = .opened fd)
    (hfree : (s.fs.inode fd).owner = none) (hs : Sole (pidStep s (p, .lockf true))) :
    s.fs.path = some fd := by
  have hrun : pidStep s (p, .lockf true) =
      s.move p (s.fs.setOwner fd (some p)) (.locked fd) := by
    simp [pidStep, hpc, FileSystem.tryLock, hfree]
  rw [hrun] at hs
  exact (hs p fd (by simp [PidState.move, InstancePc.liveFd])).1

private theorem guarded_of_sole_unlink (hpc : (s.pc p).unlinks = true) {q : Pid} {i : Nat}
    (hq : (s.pc q).liveFd = some i) (hs : Sole (pidStep s (p, .unlink true))) : q = p := by
  apply Classical.byContradiction
  intro hne
  obtain ⟨pc, hrun⟩ : ∃ pc, pidStep s (p, .unlink true) = s.move p s.fs.unlink pc := by
    cases hp : s.pc p <;> simp_all [pidStep, InstancePc.unlinks]
  rw [hrun] at hs
  have hnone := (hs q i (by simpa [PidState.move, hne] using hq)).1
  cases hnone

/-- From a state with one instance, exactly the guarded calls lead to one. -/
theorem sole_step_iff (h : PidInv s) (hs : Sole s) (act : Pid × InstanceAct) :
    Sole (pidStep s act) ↔ Guarded s act := by
  obtain ⟨p, a⟩ := act
  constructor
  · intro hsole
    unfold Guarded
    split
    · next heq =>
      obtain ⟨rfl, rfl⟩ := Prod.mk.inj heq
      exact fun fd hpc hfree ↦ guarded_of_sole_lock hpc hfree hsole
    · next heq =>
      obtain ⟨rfl, rfl⟩ := Prod.mk.inj heq
      exact fun hpc q i _ hq ↦ guarded_of_sole_unlink hpc hq hsole
    · trivial
  · intro hok
    have hinv := h.step (p, a)
    rcases pidStep_cases s p a with he | ⟨fs, pc, he, hm⟩
    · rw [he]
      exact hs
    · rw [he] at hinv ⊢
      apply hinv.sole
      intro q i hi
      by_cases hq : q = p
      · subst hq
        exact path_own h hs hm hok (by simpa [PidState.move] using hi)
      · exact path_others hs hm hok hq (by simpa [PidState.move, hq] using hi)

end Sole

/-- In every run, whatever the order of the calls, one instance at most is live after every call,
with its file at the path, exactly when no file is locked after it left the path and no path is
unlinked under another live instance. -/
theorem sole_iff_guarded (acts : List (Pid × InstanceAct)) :
    StepsMeet pidStep (fun s a ↦ Sole (pidStep s a)) PidState.init acts ↔
      StepsMeet pidStep Guarded PidState.init acts :=
  stepsMeet_kept_iff (I := PidInv) (P := Sole) (fun _ a hs ↦ hs.step a)
    (fun _ a h hs ↦ sole_step_iff h hs a) pidInv_init (fun _ _ h ↦ absurd h nofun) acts

/-- Instance 8 opens the file just before instance 7 unlinks it and locks it just after 7 closed
it; instance 9 then creates a new file. -/
def lateLockRun : List (Pid × InstanceAct) :=
  startCalls 7 ++ [(8, .daemon true), (8, .openFile true), (7, .stop), (7, .unlink true),
    (7, .close), (8, .lockf true), (8, .ftruncate true), (8, .write (some 63))] ++ startCalls 9

example : (run pidStep PidState.init lateLockRun).pc 8 = .serving 0 63 ∧
    (run pidStep PidState.init lateLockRun).pc 9 = .serving 1 63 := by
  decide

end Memlink
