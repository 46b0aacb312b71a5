import Memlink.Base.Transition
import Memlink.Config.Lookup
import Memlink.Util.Process

/-!
# The integer readers

`GetQEMUPidByVMName` and `GetIntegerValueFromCfg` end alike: `strtol`, its conversion to
`int`, and checks that look at the converted value and at `errno`. What such a reader returns
is a function of the number in its file and of what earlier calls left in `errno`; the first
one calls `realpath` on the way, which may leave another code there.
-/

namespace Memlink

open CString Transition

/-- A call of one of the two readers. -/
inductive ReaderCall where
  | pid (env : FileEnv) (vmName : Option (List UInt8))
  | cfg (env : CfgEnv) (key : List UInt8)

namespace ReaderCall

/-- The result of a call, and `errno` afterwards. -/
def read : ReaderCall → Bool → Int32 × Bool
  | pid env vmName, errno => getQEMUPidByVMName env vmName errno
  | cfg env key, errno => getIntegerValueFromCfg env key errno

/-- The code of a failed check. -/
def error : ReaderCall → Int32
  | pid _ _ => -1
  | cfg _ _ => cfgopenOrMemsetError

/-- The number that a call finds in its file. Without `memset_s` a lookup ends after the first
buffer. -/
def number : ReaderCall → Option Int
  | pid env vmName => env.pidNumber vmName
  | cfg env key =>
    env.file.bind fun content ↦
      if env.memset then firstNumber key content
      else (fgetsLines lineMaxChar content).head?.bind (supplied key)

/-- The successor of a call's `errno`. -/
def step (errno : Bool) (c : ReaderCall) : Bool := (c.read errno).2

private theorem scanLines_false (key : List UInt8) (bufs : List (List UInt8)) (errno : Bool) :
    scanLines false key bufs errno =
      match bufs.head?.bind (supplied key) with
      | some x => narrowLong cfgopenOrMemsetError x errno
      | none => (if bufs = [] then -1 else cfgopenOrMemsetError, errno) := by
  cases bufs with
  | nil => rfl
  | cons buf bufs =>
    rw [scanLines_cons, List.head?_cons, Option.bind_some, if_neg (List.cons_ne_nil buf bufs)]
    rfl

/-- What is left of `errno` where a call that finds a number reaches `strtol`. -/
def errnoAtStrtol : ReaderCall → Bool → Bool
  | pid env vmName, errno => errno && env.pidKeepsErrno vmName
  | cfg _ _, errno => errno

/-- A call that starts with `errno` clear reaches `strtol` with it clear. -/
@[simp] theorem errnoAtStrtol_false (c : ReaderCall) : c.errnoAtStrtol false = false := by
  cases c <;> rfl

/-- A number is delivered narrowed, or as the error code. -/
theorem read_of_number {c : ReaderCall} {x : Int} (h : c.number = some x) (errno : Bool) :
    c.read errno = narrowLong c.error x (c.errnoAtStrtol errno) := by
  cases c with
  | pid env vmName => exact getQEMUPidByVMName_of_number h errno
  | cfg env key =>
    obtain ⟨content, hfile, hx⟩ := Option.bind_eq_some_iff.mp h
    change getIntegerValueFromCfg env key errno = narrowLong cfgopenOrMemsetError x errno
    split at hx
    · next hmemset => rw [getIntegerValueFromCfg_eq hfile hmemset, hx]
    · next hmemset =>
      unfold getIntegerValueFromCfg
      rw [hfile]
      dsimp only
      rw [Bool.eq_false_iff.mpr hmemset, scanLines_false, hx]

/-- Without a number the result does not depend on `errno`. -/
theorem read_of_none {c : ReaderCall} (h : c.number = none) (errno : Bool) :
    (c.read errno).1 = (c.read false).1 := by
  cases c with
  | pid env vmName =>
    exact (getQEMUPidByVMName_of_none h errno).trans (getQEMUPidByVMName_of_none h false).symm
  | cfg env key =>
    change (getIntegerValueFromCfg env key errno).1 = (getIntegerValueFromCfg env key false).1
    cases hfile : env.file with
    | none => simp [getIntegerValueFromCfg, hfile]
    | some content =>
      simp only [number, hfile, Option.bind_some] at h
      split at h
      · next hmemset =>
        rw [getIntegerValueFromCfg_eq hfile hmemset, getIntegerValueFromCfg_eq hfile hmemset, h]
      · next hmemset =>
        unfold getIntegerValueFromCfg
        rw [hfile]
        dsimp only
        rw [Bool.eq_false_iff.mpr hmemset, scanLines_false, scanLines_false, h]

end ReaderCall

/-! ### Numbers out of range -/

/-- A number that fits into an `int` is delivered, any other as the error code. -/
def ExactOr (err : Int32) (x : Int) (r : Int32) : Prop :=
  r.toInt = if InInt x then x else err.toInt

instance (err : Int32) (x : Int) (r : Int32) : Decidable (ExactOr err x r) :=
  inferInstanceAs (Decidable (r.toInt = _))

/-- The narrowing rejects a number or loses nothing exactly when it fits into an `int`,
overflows `long`, or has the low half of the error code. -/
theorem exactOr_narrowLong_iff (err : Int32) (x : Int) :
    ExactOr err x (narrowLong err x false).1 ↔
      InInt x ∨ ¬ InLong x ∨ Int32.ofInt x = err := by
  unfold ExactOr narrowLong
  by_cases hint : InInt x
  · rw [if_pos hint, if_pos ⟨hint.inLong, rfl⟩, toInt_ofInt_of_inInt hint]
    simp [hint]
  · rw [if_neg hint]
    by_cases hlong : InLong x
    · rw [if_pos ⟨hlong, rfl⟩, Int32.toInt_inj]
      simp [hint, hlong]
    · rw [if_neg fun h ↦ hlong h.1]
      simp [hlong]

/-- The error codes, by the low half of a number. -/
theorem ofInt_eq_iff_emod {x : Int} {err : Int32} (n : Int) (hn : 0 < n)
    (herr : err.toInt = -n) (hmin : n ≤ 2147483648) :
    Int32.ofInt x = err ↔ x % 4294967296 = 4294967296 - n := by
  rw [Int32.ofInt_eq_iff_bmod_eq_toInt, herr, Int.bmod_def]
  omega

/-- Calls that read a number exactly return the same accepted value for the same number only. -/
theorem ReaderCall.number_unique {c d : ReaderCall} {x y : Int} (herr : c.error = d.error)
    (hx : ExactOr c.error x (c.read false).1) (hy : ExactOr d.error y (d.read false).1)
    (heq : (c.read false).1 = (d.read false).1) (hne : (c.read false).1 ≠ c.error) : x = y := by
  unfold ExactOr at hx hy
  rw [← heq, ← herr] at hy
  split at hx
  · split at hy
    · exact hx.symm.trans hy
    · exact absurd (Int32.toInt_inj.mp hy) hne
  · exact absurd (Int32.toInt_inj.mp hx) hne

/-- When numbers out of range are rejected and not truncated, with `errno` clear before the
call: for every pid file of up to 63 digits, the result is their value if it fits into an `int`
and -1 otherwise exactly when the value fits, overflows `long`, or ends in the 32 bits of -1;
for every lookup that finds a number, likewise with -2. Two calls that read exactly return the
same accepted value for the same number only. -/
theorem readers_reject_iff (env : FileEnv) (vmName content : List UInt8) (cfg : CfgEnv)
    (key : List UInt8) (x : Int) :
    (env.calloc 64 = true → env.read (pidFilePath vmName) = some content → content ≠ [] →
      content.length ≤ 63 → (∀ c ∈ content, isDigit c = true) →
      (ExactOr (-1) (decimal content) (getQEMUPidByVMName env (some vmName) false).1 ↔
        InInt (decimal content) ∨ ¬ InLong (decimal content) ∨
          (decimal content : Int) % 4294967296 = 4294967295)) ∧
    ((ReaderCall.cfg cfg key).number = some x →
      (ExactOr cfgopenOrMemsetError x (getIntegerValueFromCfg cfg key false).1 ↔
        InInt x ∨ ¬ InLong x ∨ x % 4294967296 = 4294967294)) ∧
    (∀ (c d : ReaderCall) (x y : Int), c.error = d.error →
      ExactOr c.error x (c.read false).1 → ExactOr d.error y (d.read false).1 →
      (c.read false).1 = (d.read false).1 → (c.read false).1 ≠ c.error → x = y) := by
  refine ⟨?_, ?_, fun c d x y ↦ ReaderCall.number_unique⟩
  · intro hcalloc hread hne hlen hdigits
    have hnumber := env.pidNumber_eq hcalloc hread hne hlen hdigits
    rw [getQEMUPidByVMName_of_number hnumber, Bool.false_and, exactOr_narrowLong_iff,
      ofInt_eq_iff_emod 1 (by decide) rfl (by decide)]
    rfl
  · intro hx
    have hread : getIntegerValueFromCfg cfg key false = narrowLong cfgopenOrMemsetError x false :=
      ReaderCall.read_of_number hx false
    rw [hread, exactOr_narrowLong_iff, ofInt_eq_iff_emod 2 (by decide) rfl (by decide)]
    rfl

/-- A pid file of the virtual machine `a`. -/
def pidFileA (content : List UInt8) : FileEnv :=
  .ofFiles [(pidFilePath (bytes "a"), content)] (by simp; decide +kernel)

/-- A pid of four digits is delivered. -/
theorem readers_reject_four_digits :
    ExactOr (-1) 4242 (getQEMUPidByVMName (pidFileA (bytes "4242")) (some (bytes "a")) false).1 :=
  ((readers_reject_iff (pidFileA (bytes "4242")) (bytes "a") (bytes "4242")
    ⟨none, true, true⟩ [] 0).1 rfl (by decide +kernel) (by decide +kernel) (by decide +kernel)
    (by decide +kernel)).mpr (.inl (by decide +kernel))

/-- The pid 4294967301 is read as 5. -/
theorem long_pid_truncated :
    ¬ ∀ (env : FileEnv) (vmName content : List UInt8), env.calloc 64 = true →
      env.read (pidFilePath vmName) = some content → content ≠ [] → content.length ≤ 63 →
      (∀ c ∈ content, isDigit c = true) →
      ExactOr (-1) (decimal content) (getQEMUPidByVMName env (some vmName) false).1 := by
  intro h
  have hread := h (pidFileA (bytes "4294967301")) (bytes "a") (bytes "4294967301") rfl
    (by decide +kernel) (by decide +kernel) (by decide +kernel) (by decide +kernel)
  revert hread
  decide +kernel

/-! ### What earlier calls leave behind -/

namespace ReaderCall

/-- Each call of a sequence returns what it would return as the first one. -/
def Independent (calls : List ReaderCall) : Prop :=
  ∀ pre c post, calls = pre ++ c :: post →
    (c.read (run step false pre)).1 = (c.read false).1

/-- The call finds no number that it could deliver: none at all, one that overflows `long`, or
one that narrows to the error code. -/
def Insensitive (c : ReaderCall) : Prop :=
  ∀ x, c.number = some x → ¬ InLong x ∨ Int32.ofInt x = c.error

/-- When `errno` makes no difference to a call. -/
theorem read_eq_iff (c : ReaderCall) (errno : Bool) :
    (c.read errno).1 = (c.read false).1 ↔ c.errnoAtStrtol errno = false ∨ c.Insensitive := by
  unfold Insensitive
  cases hnumber : c.number with
  | none => simpa using read_of_none hnumber errno
  | some x =>
    rw [read_of_number hnumber, read_of_number hnumber, errnoAtStrtol_false]
    by_cases hlong : InLong x
    · cases c.errnoAtStrtol errno with
      | false => simp
      | true => simp [narrowLong, hlong, eq_comm]
    · simp [narrowLong, hlong]

/-- When the readers do not depend on history. In every sequence of calls of the two readers,
from a clear `errno`, each call returns what it would return first exactly when every call
comes with `errno` clear, clears it before its `strtol`, or finds no number that it could
deliver; and after the sequence every check of a command line whose pid is read under that
condition returns what it would return first. -/
theorem independent_iff (calls : List ReaderCall) :
    (Independent calls ↔
      StepsMeet step (fun errno c ↦ c.errnoAtStrtol errno = false ∨ c.Insensitive) false calls) ∧
    ∀ (env : FileEnv) (vmName : Option (List UInt8)) (str : List UInt8),
      (pid env vmName).errnoAtStrtol (run step false calls) = false ∨
        (pid env vmName).Insensitive →
      (checkString env vmName str (run step false calls)).1 =
        (checkString env vmName str false).1 := by
  constructor
  · rw [stepsMeet_iff_split]
    refine forall_congr' fun pre ↦ forall_congr' fun c ↦ forall_congr' fun post ↦ ?_
    rw [read_eq_iff]
  · intro env vmName str h
    exact checkString_fst_congr (((pid env vmName).read_eq_iff _).mpr h) str

end ReaderCall

/-- A configuration with a setting of twenty digits. -/
def overflowCfg : CfgEnv :=
  ⟨some (bytes "host_info_poll_time=99999999999999999999\ninit_sem_wait_timeout=500\n"), true, true⟩

/-- After the setting of twenty digits was looked up, the other one is refused. -/
theorem overflow_poisons_later_lookup : ¬ ∀ calls, ReaderCall.Independent calls := by
  intro h
  have hlookup := h
    [.cfg overflowCfg (bytes "host_info_poll_time"),
      .cfg overflowCfg (bytes "init_sem_wait_timeout")]
    [.cfg overflowCfg (bytes "host_info_poll_time")]
    (.cfg overflowCfg (bytes "init_sem_wait_timeout")) [] rfl
  revert hlookup
  decide +kernel

end Memlink
