import Memlink.Base.Decimal
import Memlink.Base.LockFile
import Memlink.Base.Transition

/-!
# One instance at a time

`Daemonize` (`main.c:32–81`) and the end of `main` (`main.c:114–122`, `149–160`): an instance
of memlinkd opens `/var/run/memlinkd.pid`, locks it, writes its pid into it and serves; when it
leaves it unlinks the path and closes the file. Any number of instances start, fail, stop and
are killed, and their system calls interleave in any order. A pid may be used again.
-/

namespace Memlink

open Transition CString LockFile

/-- A process id. -/
abbrev Pid := Nat

/-- Where an instance is, with the inode of its descriptor and the number of bytes of its pid
that it wrote. -/
inductive InstancePc where
  | gone
  | daemonized
  | opened (fd : Nat)
  | locked (fd : Nat)
  | cleared (fd : Nat)
  | serving (fd written : Nat)
  | stopping (fd written : Nat)
  | unlinked (fd : Nat)
  | failed
  deriving DecidableEq, Repr

/-- The system calls of an instance with their outcomes, its decision to stop, and its death. -/
inductive InstanceAct where
  | daemon (ok : Bool)
  | openFile (ok : Bool)
  | lockf (ok : Bool)
  | ftruncate (ok : Bool)
  | write (ret : Option Nat)
  | stop
  | unlink (ok : Bool)
  | close
  | kill
  deriving DecidableEq, Repr

/-- The file system and the place of every process. -/
structure PidState where
  fs : FileSystem Pid
  pc : Pid → InstancePc

/-- No instance was started yet. -/
def PidState.init : PidState := ⟨FileSystem.empty, fun _ ↦ .gone⟩

/-- A process moves, the file system changes. -/
def PidState.move (s : PidState) (p : Pid) (fs : FileSystem Pid) (pc : InstancePc) : PidState :=
  ⟨fs, Function.update s.pc p pc⟩

/-- The file of an instance's descriptor. -/
def InstancePc.fd? : InstancePc → Option Nat
  | .gone => none
  | .daemonized => none
  | .opened fd => some fd
  | .locked fd => some fd
  | .cleared fd => some fd
  | .serving fd _ => some fd
  | .stopping fd _ => some fd
  | .unlinked fd => some fd
  | .failed => none

/-- `sizeof(buf) - 1` in `Daemonize`: the longest pid that `snprintf_s` formats. -/
def pidBufMax : Nat := 63

/-- `write` of the pid after `snprintf_s`: `ret` is the number of bytes the call writes at most.
A write of fewer bytes than the pid has is not noticed. -/
def writePid (s : PidState) (p : Pid) (fd : Nat) (ret : Option Nat) : PidState :=
  let text := printNat p
  if text.length ≤ pidBufMax then
    match ret with
    | some n => s.move p (s.fs.writeStart fd (text.take n)) (.serving fd n)
    | none => s.move p (s.fs.close p fd) .failed
  else s.move p (s.fs.close p fd) .failed

/-- One system call of the process `p`; a call that is not its next one does nothing. -/
def pidStep (s : PidState) : Pid × InstanceAct → PidState
  | (p, .daemon ok) =>
    if s.pc p = .gone ∧ ok = true then s.move p s.fs .daemonized else s
  | (p, .openFile ok) =>
    if s.pc p = .daemonized then
      if ok then s.move p s.fs.openCreate.1 (.opened s.fs.openCreate.2)
      else s.move p s.fs .gone
    else s
  | (p, .lockf ok) =>
    match s.pc p with
    | .opened fd =>
      -- A refused instance closes the file and exits with it as it was.
      match if ok then s.fs.tryLock p fd else none with
      | some fs => s.move p fs (.locked fd)
      | none => s.move p (s.fs.close p fd) .gone
    | _ => s
  | (p, .ftruncate ok) =>
    match s.pc p with
    | .locked fd =>
      if ok then s.move p (s.fs.truncate fd) (.cleared fd)
      else s.move p (s.fs.close p fd) .failed
    | _ => s
  | (p, .write ret) =>
    match s.pc p with
    | .cleared fd => writePid s p fd ret
    | _ => s
  | (p, .stop) =>
    match s.pc p with
    | .serving fd n => s.move p s.fs (.stopping fd n)
    | _ => s
  | (p, .unlink ok) =>
    match s.pc p with
    | .stopping fd _ => s.move p (if ok then s.fs.unlink else s.fs) (.unlinked fd)
    | .failed => s.move p (if ok then s.fs.unlink else s.fs) .gone
    | _ => s
  | (p, .close) =>
    match s.pc p with
    | .unlinked fd => s.move p (s.fs.close p fd) .gone
    | _ => s
  | (p, .kill) =>
    match (s.pc p).fd? with
    | some fd => s.move p (s.fs.close p fd) .gone
    | none => s.move p s.fs .gone

/-! ### What one call does -/

/-- The moves of an instance `p` from the file system `fs`: by which call, from where, and to
which file system and place. -/
inductive Moves (fs : FileSystem Pid) (p : Pid) :
    InstanceAct → InstancePc → FileSystem Pid → InstancePc → Prop where
  | daemon : Moves fs p (.daemon true) .gone fs .daemonized
  | openFile :
      Moves fs p (.openFile true) .daemonized fs.openCreate.1 (.opened fs.openCreate.2)
  | lock (fd : Nat) : (fs.inode fd).owner = none ∨ (fs.inode fd).owner = some p →
      Moves fs p (.lockf true) (.opened fd) (fs.setOwner fd (some p)) (.locked fd)
  | truncate (fd : Nat) :
      Moves fs p (.ftruncate true) (.locked fd) (fs.truncate fd) (.cleared fd)
  | write (fd n : Nat) :
      Moves fs p (.write (some n)) (.cleared fd) (fs.writeStart fd ((printNat p).take n))
        (.serving fd n)
  | stop (fd n : Nat) : Moves fs p .stop (.serving fd n) fs (.stopping fd n)
  | unlink (fd n : Nat) : Moves fs p (.unlink true) (.stopping fd n) fs.unlink (.unlinked fd)
  | unlinkFails (fd n : Nat) : Moves fs p (.unlink false) (.stopping fd n) fs (.unlinked fd)
  | cleanUp : Moves fs p (.unlink true) .failed fs.unlink .gone
  | giveUp (a : InstanceAct) (pc : InstancePc) (fd : Nat) : pc = .locked fd ∨ pc = .cleared fd →
      Moves fs p a pc (fs.close p fd) .failed
  | leave (a : InstanceAct) (pc : InstancePc) (fd : Nat) : pc.fd? = some fd →
      Moves fs p a pc (fs.close p fd) .gone
  | vanish (a : InstanceAct) (pc : InstancePc) : pc.fd? = none → Moves fs p a pc fs .gone

/-- A call does nothing or moves its process. -/
theorem pidStep_cases (s : PidState) (p : Pid) (a : InstanceAct) :
    pidStep s (p, a) = s ∨
      ∃ fs pc, pidStep s (p, a) = s.move p fs pc ∧ Moves s.fs p a (s.pc p) fs pc := by
  cases a with
  | daemon ok =>
    simp only [pidStep]
    split
    · next h =>
      obtain ⟨hpc, rfl⟩ := h
      exact .inr ⟨_, _, rfl, hpc ▸ .daemon⟩
    · exact .inl rfl
  | openFile ok =>
    simp only [pidStep]
    split
    · next h =>
      rw [h]
      cases ok with
      | true => exact .inr ⟨_, _, rfl, .openFile⟩
      | false => exact .inr ⟨_, _, rfl, .vanish _ _ rfl⟩
    · exact .inl rfl
  | lockf ok =>
    simp only [pidStep]
    split
    · next fd h =>
      rw [h]
      split
      · next fs hlock =>
        refine .inr ⟨_, _, rfl, ?_⟩
        cases ok with
        | false => cases hlock
        | true =>
          simp only [if_true, FileSystem.tryLock] at hlock
          split at hlock
          · next hfree =>
            obtain rfl := Option.some.inj hlock
            exact .lock fd hfree
          · cases hlock
      · exact .inr ⟨_, _, rfl, .leave _ _ fd rfl⟩
    · exact .inl rfl
  | ftruncate ok =>
    simp only [pidStep]
    split
    · next fd h =>
      rw [h]
      cases ok with
      | true => exact .inr ⟨_, _, rfl, .truncate fd⟩
      | false => exact .inr ⟨_, _, rfl, .giveUp _ _ fd (.inl rfl)⟩
    · exact .inl rfl
  | write ret =>
    simp only [pidStep]
    split
    · next fd h =>
      rw [h]
      unfold writePid
      dsimp only
      split
      · cases ret with
        | some n => exact .inr ⟨_, _, rfl, .write fd n⟩
        | none => exact .inr ⟨_, _, rfl, .giveUp _ _ fd (.inr rfl)⟩
      · exact .inr ⟨_, _, rfl, .giveUp _ _ fd (.inr rfl)⟩
    · exact .inl rfl
  | stop =>
    simp only [pidStep]
    split
    · next fd n h => exact .inr ⟨_, _, rfl, h ▸ .stop fd n⟩
    · exact .inl rfl
  | unlink ok =>
    simp only [pidStep]
    split
    · next fd n h =>
      rw [h]
      cases ok with
      | true => exact .inr ⟨_, _, rfl, .unlink fd n⟩
      | false => exact .inr ⟨_, _, rfl, .unlinkFails fd n⟩
    · next h =>
      rw [h]
      cases ok with
      | true => exact .inr ⟨_, _, rfl, .cleanUp⟩
      | false => exact .inr ⟨_, _, rfl, .vanish _ _ rfl⟩
    · exact .inl rfl
  | close =>
    simp only [pidStep]
    split
    · next fd h => exact .inr ⟨_, _, rfl, h ▸ .leave _ _ fd rfl⟩
    · exact .inl rfl
  | kill =>
    simp only [pidStep]
    split
    · next fd h => exact .inr ⟨_, _, rfl, .leave _ _ fd h⟩
    · next h => exact .inr ⟨_, _, rfl, .vanish _ _ h⟩

/-! ### The lock protects the pid -/

/-- The file an instance has locked. -/
def InstancePc.lockedFd : InstancePc → Option Nat
  | .gone => none
  | .daemonized => none
  | .opened _ => none
  | .failed => none
  | .locked fd => some fd
  | .cleared fd => some fd
  | .serving fd _ => some fd
  | .stopping fd _ => some fd
  | .unlinked fd => some fd

/-- The file of an instance `p` and what it holds, from its truncation on. -/
def InstancePc.holds (p : Pid) : InstancePc → Option (Nat × List UInt8)
  | .cleared fd => some (fd, [])
  | .serving fd n => some (fd, (printNat p).take n)
  | .stopping fd n => some (fd, (printNat p).take n)
  | _ => none

/-- A locked file is open. -/
theorem InstancePc.fd?_of_lockedFd {pc : InstancePc} {i : Nat} (h : pc.lockedFd = some i) :
    pc.fd? = some i := by
  cases pc <;> simp_all [lockedFd, fd?]

/-- A file whose bytes are known is locked. -/
theorem InstancePc.lockedFd_of_holds {p : Pid} {pc : InstancePc} {i : Nat} {bs : List UInt8}
    (h : pc.holds p = some (i, bs)) : pc.lockedFd = some i := by
  cases pc <;> simp_all [lockedFd, holds]

/-- Locks are held by the instances past their `lockf`, descriptors are of existing files, and
the bytes of a locked file are those of the instance that holds it. -/
structure PidInv (s : PidState) : Prop where
  owner_iff : ∀ i p, (s.fs.inode i).owner = some p ↔ (s.pc p).lockedFd = some i
  fd_lt : ∀ p i, (s.pc p).fd? = some i → i < s.fs.next
  path_lt : ∀ i, s.fs.path = some i → i < s.fs.next
  bytes : ∀ p i bs, (s.pc p).holds p = some (i, bs) → (s.fs.inode i).bytes = bs

/-- At most one instance has a file locked. -/
theorem PidInv.locked_unique {s : PidState} (h : PidInv s) {p q : Pid} {i : Nat}
    (hp : (s.pc p).lockedFd = some i) (hq : (s.pc q).lockedFd = some i) : p = q := by
  have hown := ((h.owner_iff i p).mpr hp).symm.trans ((h.owner_iff i q).mpr hq)
  exact Option.some.inj hown

/-- A file that does not exist yet is not locked. -/
theorem PidInv.next_free {s : PidState} (h : PidInv s) :
    (s.fs.inode s.fs.next).owner = none := by
  cases hown : (s.fs.inode s.fs.next).owner with
  | none => rfl
  | some p =>
    have hfd := InstancePc.fd?_of_lockedFd ((h.owner_iff _ p).mp hown)
    exact absurd (h.fd_lt p _ hfd) (Nat.lt_irrefl _)

/-- What the moving process `p` may do to the locks and files of the others, and what it must
keep of its own. -/
structure MoveKeeps (s : PidState) (p : Pid) (fs : FileSystem Pid) (pc : InstancePc) : Prop where
  owner_iff : ∀ i q, (fs.inode i).owner = some q ↔
    (q ≠ p ∧ (s.fs.inode i).owner = some q) ∨ (q = p ∧ pc.lockedFd = some i)
  next_le : s.fs.next ≤ fs.next
  fd_lt : ∀ i, pc.fd? = some i → i < fs.next
  path_lt : ∀ i, fs.path = some i → i < fs.next
  others : ∀ i q, q ≠ p → (s.fs.inode i).owner = some q →
    (fs.inode i).bytes = (s.fs.inode i).bytes
  own : ∀ i bs, pc.holds p = some (i, bs) → (fs.inode i).bytes = bs

section Moves

variable {s : PidState} {p : Pid} {fs : FileSystem Pid} {pc : InstancePc}

private theorem owners_kept (h : PidInv s) (hown : ∀ i, (fs.inode i).owner = (s.fs.inode i).owner)
    (hpc : pc.lockedFd = (s.pc p).lockedFd) (i : Nat) (q : Pid) :
    (fs.inode i).owner = some q ↔
      (q ≠ p ∧ (s.fs.inode i).owner = some q) ∨ (q = p ∧ pc.lockedFd = some i) := by
  rw [hown, hpc]
  by_cases hq : q = p
  · subst hq
    simp [h.owner_iff]
  · simp [hq]

private theorem owners_closed (h : PidInv s) {fd : Nat} (hfd : (s.pc p).fd? = some fd)
    (hpc : pc.lockedFd = none) (i : Nat) (q : Pid) :
    ((s.fs.close p fd).inode i).owner = some q ↔
      (q ≠ p ∧ (s.fs.inode i).owner = some q) ∨ (q = p ∧ pc.lockedFd = some i) := by
  rw [FileSystem.close_owner_iff, hpc]
  by_cases hq : q = p
  · subst hq
    -- Its only descriptor is the one it closes.
    have hone : (s.fs.inode i).owner = some q → i = fd := by
      intro hi
      have hi' := InstancePc.fd?_of_lockedFd ((h.owner_iff i q).mp hi)
      exact Option.some.inj (hi'.symm.trans hfd)
    simpa using hone
  · simp [hq]

private theorem owners_locked (h : PidInv s) {fd : Nat} (hp : s.pc p = .opened fd)
    (hfree : (s.fs.inode fd).owner = none ∨ (s.fs.inode fd).owner = some p) (i : Nat) (q : Pid) :
    ((s.fs.setOwner fd (some p)).inode i).owner = some q ↔
      (q ≠ p ∧ (s.fs.inode i).owner = some q) ∨
        (q = p ∧ (InstancePc.locked fd).lockedFd = some i) := by
  rw [FileSystem.setOwner_owner_iff s.fs hfree]
  by_cases hq : q = p
  · subst hq
    have hnone : (s.fs.inode i).owner ≠ some q := by
      rw [ne_eq, h.owner_iff, hp]
      exact nofun
    simp [hnone, InstancePc.lockedFd, eq_comm]
  · simp [hq]

private theorem others_kept (h : PidInv s) {fd : Nat} (hfd : (s.pc p).lockedFd = some fd)
    (bs : List UInt8) (i : Nat) (q : Pid) (hq : q ≠ p) (hi : (s.fs.inode i).owner = some q) :
    ((s.fs.setBytes fd bs).inode i).bytes = (s.fs.inode i).bytes := by
  rw [FileSystem.setBytes_bytes, if_neg]
  rintro rfl
  exact hq (h.locked_unique ((h.owner_iff i q).mp hi) hfd)

private theorem keeps_same (h : PidInv s) (hpc : pc.lockedFd = (s.pc p).lockedFd)
    (hfd : ∀ i, pc.fd? = some i → (s.pc p).fd? = some i)
    (hholds : ∀ x, pc.holds p = some x → (s.pc p).holds p = some x) :
    MoveKeeps s p s.fs pc where
  owner_iff := owners_kept h (fun _ ↦ rfl) hpc
  next_le := Nat.le_refl _
  fd_lt := fun i hi ↦ h.fd_lt p i (hfd i hi)
  path_lt := h.path_lt
  others := fun _ _ _ _ ↦ rfl
  own := fun i bs hi ↦ h.bytes p i bs (hholds _ hi)

private theorem keeps_unlink (h : PidInv s) (hpc : pc.lockedFd = (s.pc p).lockedFd)
    (hfd : ∀ i, pc.fd? = some i → (s.pc p).fd? = some i)
    (hholds : ∀ x, pc.holds p = some x → (s.pc p).holds p = some x) :
    MoveKeeps s p s.fs.unlink pc where
  owner_iff := owners_kept h (fun _ ↦ rfl) hpc
  next_le := Nat.le_refl _
  fd_lt := fun i hi ↦ h.fd_lt p i (hfd i hi)
  path_lt := fun _ hi ↦ absurd hi nofun
  others := fun _ _ _ _ ↦ rfl
  own := fun i bs hi ↦ h.bytes p i bs (hholds _ hi)

private theorem keeps_close (h : PidInv s) {fd : Nat} (hfd : (s.pc p).fd? = some fd)
    (hpc : pc.fd? = none) : MoveKeeps s p (s.fs.close p fd) pc where
  owner_iff := by
    apply owners_closed h hfd
    cases pc <;> simp_all [InstancePc.lockedFd, InstancePc.fd?]
  next_le := by simp
  fd_lt := fun i hi ↦ absurd (hpc.symm.trans hi) nofun
  path_lt := by simpa using h.path_lt
  others := fun i q _ _ ↦ by simp
  own := fun i bs hi ↦ by
    have hlocked := InstancePc.fd?_of_lockedFd (InstancePc.lockedFd_of_holds hi)
    exact absurd (hpc.symm.trans hlocked) nofun

private theorem keeps_setBytes (h : PidInv s) {fd : Nat} {bs : List UInt8}
    (hfd : (s.pc p).lockedFd = some fd) (hpc : pc.lockedFd = some fd)
    (hholds : pc.holds p = some (fd, bs)) : MoveKeeps s p (s.fs.setBytes fd bs) pc where
  owner_iff := owners_kept h (fun i ↦ by simp) (hpc.trans hfd.symm)
  next_le := Nat.le_refl _
  fd_lt := fun i hi ↦ by
    have hi' := hi.symm.trans (InstancePc.fd?_of_lockedFd hpc)
    exact h.fd_lt p i ((InstancePc.fd?_of_lockedFd hfd).trans hi'.symm)
  path_lt := h.path_lt
  others := others_kept h hfd bs
  own := fun i cs hi ↦ by
    obtain ⟨rfl, rfl⟩ := Prod.mk.inj (Option.some.inj (hholds.symm.trans hi))
    simp [FileSystem.setBytes_bytes]

/-- Every move keeps what the others have. -/
theorem Moves.keeps {a : InstanceAct} (hm : Moves s.fs p a (s.pc p) fs pc) (h : PidInv s) :
    MoveKeeps s p fs pc := by
  generalize hpc : s.pc p = pc₀ at hm
  cases hm with
  | daemon => exact keeps_same h (by rw [hpc]; rfl) nofun nofun
  | openFile =>
    have hnext := s.fs.openCreate_next h.path_lt
    refine ⟨owners_kept h (s.fs.openCreate_owner h.next_free) (by rw [hpc]; rfl), hnext.1,
      fun i hi ↦ ?_, fun i hi ↦ ?_, fun i q _ hi ↦ ?_, nofun⟩
    · exact Option.some.inj hi ▸ hnext.2
    · exact Option.some.inj (s.fs.openCreate_path.symm.trans hi) ▸ hnext.2
    · have hfd := InstancePc.fd?_of_lockedFd ((h.owner_iff i q).mp hi)
      exact s.fs.openCreate_bytes (h.fd_lt q i hfd)
  | lock fd hfree =>
    refine ⟨owners_locked h hpc hfree, Nat.le_refl _, fun i hi ↦ ?_, h.path_lt, fun i q _ _ ↦ ?_,
      nofun⟩
    · exact h.fd_lt p i (by rw [hpc]; exact hi)
    · simp
  | truncate fd => exact keeps_setBytes h (by rw [hpc]; rfl) rfl rfl
  | write fd n =>
    have hempty := h.bytes p fd [] (by rw [hpc]; rfl)
    unfold FileSystem.writeStart
    rw [hempty, List.drop_nil, List.append_nil]
    exact keeps_setBytes h (by rw [hpc]; rfl) rfl rfl
  | stop fd n =>
    exact keeps_same h (by rw [hpc]; rfl) (by rw [hpc]; exact fun _ hi ↦ hi)
      (by rw [hpc]; exact fun _ hi ↦ hi)
  | unlink fd n =>
    exact keeps_unlink h (by rw [hpc]; rfl) (by rw [hpc]; exact fun _ hi ↦ hi) nofun
  | unlinkFails fd n =>
    exact keeps_same h (by rw [hpc]; rfl) (by rw [hpc]; exact fun _ hi ↦ hi) nofun
  | cleanUp => exact keeps_unlink h (by rw [hpc]; rfl) nofun nofun
  | giveUp _ _ fd hheld =>
    refine keeps_close h ?_ rfl
    rcases hheld with rfl | rfl <;> rw [hpc] <;> rfl
  | leave _ _ fd hfd => exact keeps_close h (hpc ▸ hfd) rfl
  | vanish _ _ hnone =>
    refine keeps_same h ?_ nofun nofun
    rw [hpc]
    cases pc₀ <;> simp_all [InstancePc.lockedFd, InstancePc.fd?]

end Moves

/-- Every call keeps the invariant. -/
theorem PidInv.step {s : PidState} (h : PidInv s) (act : Pid × InstanceAct) :
    PidInv (pidStep s act) := by
  obtain ⟨p, a⟩ := act
  rcases pidStep_cases s p a with he | ⟨fs, pc, he, hm⟩
  · rw [he]
    exact h
  · rw [he]
    have hk := hm.keeps h
    refine ⟨fun i q ↦ ?_, fun q i hi ↦ ?_, hk.path_lt, fun q i bs hi ↦ ?_⟩
    · rw [PidState.move, hk.owner_iff]
      by_cases hq : q = p
      · subst hq
        simp
      · simp [hq, h.owner_iff]
    · by_cases hq : q = p
      · subst hq
        exact hk.fd_lt i (by simpa [PidState.move] using hi)
      · have hlt := h.fd_lt q i (by simpa [PidState.move, hq] using hi)
        exact Nat.lt_of_lt_of_le hlt hk.next_le
    · by_cases hq : q = p
      · subst hq
        exact hk.own i bs (by simpa [PidState.move] using hi)
      · have hi' : (s.pc q).holds q = some (i, bs) := by simpa [PidState.move, hq] using hi
        have hown := (h.owner_iff i q).mpr (InstancePc.lockedFd_of_holds hi')
        exact (hk.others i q hq hown).trans (h.bytes q i bs hi')

/-- No instance, no lock. -/
theorem pidInv_init : PidInv PidState.init :=
  ⟨fun _ _ ↦ ⟨nofun, nofun⟩, nofun, nofun, nofun⟩

/-- Every run keeps the invariant. -/
theorem pidInv_run (acts : List (Pid × InstanceAct)) :
    PidInv (run pidStep PidState.init acts) :=
  Reachable.invariant ⟨acts, rfl⟩ pidInv_init fun _ a hs ↦ hs.step a

/-- In every run, the file of a serving instance holds what it wrote of its own pid, reads as
that pid if it wrote all of it, and is locked by no other instance: starting, failing, stopping
and dying instances never touch it. -/
theorem serving_file_holds_pid (acts : List (Pid × InstanceAct)) (p : Pid) (fd n : Nat)
    (h : (run pidStep PidState.init acts).pc p = .serving fd n) :
    ((run pidStep PidState.init acts).fs.inode fd).bytes = (printNat p).take n ∧
      ((printNat p).length ≤ n →
        decimal ((run pidStep PidState.init acts).fs.inode fd).bytes = p) ∧
      ∀ q, ((run pidStep PidState.init acts).pc q).lockedFd = some fd → q = p := by
  have hinv := pidInv_run acts
  generalize run pidStep PidState.init acts = s at h hinv ⊢
  have hbytes := hinv.bytes p fd _ (by rw [h]; rfl)
  refine ⟨hbytes, fun hn ↦ ?_, fun q hq ↦ ?_⟩
  · rw [hbytes, List.take_of_length_le hn, decimal_printNat]
  · exact hinv.locked_unique hq (by rw [h]; rfl)

/-- Instance 7 serves while instance 8 opens the file and is refused. -/
def refusedRun : List (Pid × InstanceAct) :=
  [(7, .daemon true), (7, .openFile true), (8, .daemon true), (7, .lockf true),
    (7, .ftruncate true), (8, .openFile true), (7, .write (some 63)), (8, .lockf true)]

/-- The refused instance leaves the pid of the other in place. -/
theorem serving_file_holds_pid_refused :
    (run pidStep PidState.init refusedRun).pc 8 = .gone ∧
      decimal ((run pidStep PidState.init refusedRun).fs.inode 0).bytes = 7 :=
  ⟨by decide, (serving_file_holds_pid refusedRun 7 0 63 (by decide)).2.1 (by decide)⟩

end Memlink
