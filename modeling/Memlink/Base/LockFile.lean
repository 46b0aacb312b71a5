import Mathlib.Logic.Function.Basic

/-!
# A path, its inodes and their advisory locks

One path of a file system as lock files use it: the path names at most one inode, an unlinked
inode lives on under the descriptors that refer to it, and a process holds the lock of an inode
from `lockf` until it closes the inode.
-/

namespace Memlink.LockFile

universe u

/-- An inode: its bytes and the process that holds its lock. -/
structure Inode (π : Type u) where
  bytes : List UInt8
  owner : Option π

/-- The inode at the path, all inodes, and the number of the next one. -/
structure FileSystem (π : Type u) where
  path : Option Nat
  inode : Nat → Inode π
  next : Nat

namespace FileSystem

variable {π : Type u}

/-- No file was created yet. -/
def empty : FileSystem π := ⟨none, fun _ ↦ ⟨[], none⟩, 0⟩

/-- `open` with `O_CREAT`. -/
def openCreate (fs : FileSystem π) : FileSystem π × Nat :=
  match fs.path with
  | some i => (fs, i)
  | none =>
    (⟨some fs.next, Function.update fs.inode fs.next ⟨[], none⟩, fs.next + 1⟩, fs.next)

/-- The inode `i` with its owner replaced. -/
def setOwner (fs : FileSystem π) (i : Nat) (owner : Option π) : FileSystem π :=
  { fs with inode := Function.update fs.inode i { fs.inode i with owner := owner } }

/-- The inode `i` with its bytes replaced. -/
def setBytes (fs : FileSystem π) (i : Nat) (bytes : List UInt8) : FileSystem π :=
  { fs with inode := Function.update fs.inode i { fs.inode i with bytes := bytes } }

/-- `lockf` with `F_TLOCK` by the process `p`; `none` if another process holds the lock. -/
def tryLock [DecidableEq π] (fs : FileSystem π) (p : π) (i : Nat) : Option (FileSystem π) :=
  if (fs.inode i).owner = none ∨ (fs.inode i).owner = some p then
    some (fs.setOwner i (some p))
  else none

/-- `ftruncate` to length 0. -/
def truncate (fs : FileSystem π) (i : Nat) : FileSystem π := fs.setBytes i []

/-- `write` at offset 0. -/
def writeStart (fs : FileSystem π) (i : Nat) (bytes : List UInt8) : FileSystem π :=
  fs.setBytes i (bytes ++ (fs.inode i).bytes.drop bytes.length)

/-- `unlink`. -/
def unlink (fs : FileSystem π) : FileSystem π := { fs with path := none }

/-- `close` by the process `p`, which gives up its lock. -/
def close [DecidableEq π] (fs : FileSystem π) (p : π) (i : Nat) : FileSystem π :=
  if (fs.inode i).owner = some p then fs.setOwner i none else fs

section Fields

variable (fs : FileSystem π) (i j : Nat)

/-- Locking binds no path. -/
@[simp] theorem setOwner_path (o : Option π) : (fs.setOwner i o).path = fs.path := rfl

/-- Locking makes no inode. -/
@[simp] theorem setOwner_next (o : Option π) : (fs.setOwner i o).next = fs.next := rfl

/-- Writing binds no path. -/
@[simp] theorem setBytes_path (bs : List UInt8) : (fs.setBytes i bs).path = fs.path := rfl

/-- Writing makes no inode. -/
@[simp] theorem setBytes_next (bs : List UInt8) : (fs.setBytes i bs).next = fs.next := rfl

/-- Locking writes nothing. -/
@[simp] theorem setOwner_bytes (o : Option π) :
    ((fs.setOwner i o).inode j).bytes = (fs.inode j).bytes := by
  by_cases h : j = i
  · subst h
    simp [setOwner]
  · simp [setOwner, h]

/-- Writing locks nothing. -/
@[simp] theorem setBytes_owner (bs : List UInt8) :
    ((fs.setBytes i bs).inode j).owner = (fs.inode j).owner := by
  by_cases h : j = i
  · subst h
    simp [setBytes]
  · simp [setBytes, h]

/-- Only the owner of the one inode changes. -/
theorem setOwner_owner (o : Option π) :
    ((fs.setOwner i o).inode j).owner = if j = i then o else (fs.inode j).owner := by
  by_cases h : j = i
  · subst h
    simp [setOwner]
  · simp [setOwner, h]

/-- Only the bytes of the one inode change. -/
theorem setBytes_bytes (bs : List UInt8) :
    ((fs.setBytes i bs).inode j).bytes = if j = i then bs else (fs.inode j).bytes := by
  by_cases h : j = i
  · subst h
    simp [setBytes]
  · simp [setBytes, h]

end Fields

/-- An opened file is at the path. -/
theorem openCreate_path (fs : FileSystem π) :
    (fs.openCreate).1.path = some (fs.openCreate).2 := by
  unfold openCreate
  split
  · assumption
  · rfl

/-- Opening leaves every inode alone but a new one, which is empty and unlocked. -/
theorem openCreate_cases (fs : FileSystem π) :
    (fs.path = some (fs.openCreate).2 ∧ (fs.openCreate).1 = fs) ∨
      (fs.path = none ∧ fs.openCreate =
        (⟨some fs.next, Function.update fs.inode fs.next ⟨[], none⟩, fs.next + 1⟩, fs.next)) := by
  unfold openCreate
  split
  · next i hpath => exact .inl ⟨hpath, rfl⟩
  · next hpath => exact .inr ⟨hpath, rfl⟩

/-- Opening takes no lock and gives none up. -/
theorem openCreate_owner (fs : FileSystem π) (hnew : (fs.inode fs.next).owner = none) (j : Nat) :
    (fs.openCreate.1.inode j).owner = (fs.inode j).owner := by
  rcases fs.openCreate_cases with ⟨_, he⟩ | ⟨_, he⟩
  · rw [he]
  · rw [he]
    by_cases h : j = fs.next
    · subst h
      simp [hnew]
    · simp [h]

/-- Opening leaves the bytes of every existing file alone. -/
theorem openCreate_bytes (fs : FileSystem π) {j : Nat} (h : j < fs.next) :
    (fs.openCreate.1.inode j).bytes = (fs.inode j).bytes := by
  rcases fs.openCreate_cases with ⟨_, he⟩ | ⟨_, he⟩
  · rw [he]
  · rw [he]
    simp [Nat.ne_of_lt h]

/-- Opening creates at most one file, and the opened one exists. -/
theorem openCreate_next (fs : FileSystem π) (hpath : ∀ i, fs.path = some i → i < fs.next) :
    fs.next ≤ fs.openCreate.1.next ∧ fs.openCreate.2 < fs.openCreate.1.next := by
  rcases fs.openCreate_cases with ⟨hp, he⟩ | ⟨_, he⟩
  · rw [he]
    exact ⟨Nat.le_refl _, hpath _ hp⟩
  · rw [he]
    exact ⟨Nat.le_succ _, Nat.lt_succ_self _⟩

/-- Locking a free file adds one lock. -/
theorem setOwner_owner_iff (fs : FileSystem π) {p : π} {i : Nat}
    (hfree : (fs.inode i).owner = none ∨ (fs.inode i).owner = some p) (j : Nat) (q : π) :
    ((fs.setOwner i (some p)).inode j).owner = some q ↔
      (fs.inode j).owner = some q ∨ j = i ∧ q = p := by
  rw [setOwner_owner]
  by_cases h : j = i
  · subst h
    rcases hfree with hf | hf
    · simp [hf, eq_comm]
    · simp [hf, eq_comm]
  · simp [h]

section Locks

variable [DecidableEq π] (fs : FileSystem π)

/-- Closing takes away the closer's lock of that file. -/
theorem close_owner_iff (p : π) (i j : Nat) (q : π) :
    ((fs.close p i).inode j).owner = some q ↔
      (fs.inode j).owner = some q ∧ ¬ (j = i ∧ q = p) := by
  unfold close
  split
  · next hown =>
    rw [setOwner_owner]
    by_cases h : j = i
    · subst h
      simp [hown, eq_comm]
    · simp [h]
  · next hown =>
    refine ⟨fun h ↦ ⟨h, ?_⟩, fun h ↦ h.1⟩
    rintro ⟨rfl, rfl⟩
    exact hown h

/-- Closing binds no path. -/
@[simp] theorem close_path (p : π) (i : Nat) : (fs.close p i).path = fs.path := by
  unfold close
  split <;> rfl

/-- Closing makes no inode. -/
@[simp] theorem close_next (p : π) (i : Nat) : (fs.close p i).next = fs.next := by
  unfold close
  split <;> rfl

/-- Closing writes nothing. -/
@[simp] theorem close_bytes (p : π) (i j : Nat) :
    ((fs.close p i).inode j).bytes = (fs.inode j).bytes := by
  unfold close
  split
  · exact setOwner_bytes fs i j none
  · rfl

/-- Closing a file whose lock another process holds, or none does, changes nothing. -/
theorem close_eq_self {p : π} {i : Nat} (h : (fs.inode i).owner ≠ some p) : fs.close p i = fs := by
  unfold close
  rw [if_neg h]

end Locks

end FileSystem

end Memlink.LockFile
