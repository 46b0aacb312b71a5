import Memlink.Util.Process
import Memlink.Vm.VmList

/-!
# Huge-page VMs

What `InitAndCheckVM` (`memlink_driver.c:133–180`) learns about a VM from its process, and
when that keeps a VM with huge pages out of the list. `CheckString` reads
`MEMLINK_ARG_MAX - 1` bytes of the command line and no more.
-/

namespace Memlink

open CString

/-- The bytes of a domain's name. -/
def nameBytes (name : String) : List UInt8 := name.toUTF8.data.toList

/-- What `InitAndCheckVM` learns about a domain with a name: the huge-page check, the check
for Windows after it, and the answer of `virDomainGetInfo`. -/
def processProbe (env : FileEnv) (name : String) (info : Option DomainInfo) (errno : Bool) :
    DomainProbe :=
  let hugePage := checkVMHasHugePage env (some (nameBytes name)) errno
  let windows := checkVMIsWindows env (some (nameBytes name)) hugePage.2
  ⟨some name, hugePage.1, windows.1, info⟩

/-- Some argument of a command line contains a word. -/
def HasArgument (word cmdline : List UInt8) : Prop :=
  ∃ argument ∈ cmdline.splitOn 0, word <:+: argument

/-- `FindAddVMToList` inserts no VM of this name, whatever the list, the domain and the
answers of the other calls. -/
def StaysOut (env : FileEnv) (name : String) : Prop :=
  ∀ (l : VmList) (domid : Int) (alloc : Bool) (info : Option DomainInfo),
    (findAddVMToList l domid alloc (some (processProbe env name info false))).vms = l.vms

/-- A word without NUL lies in one argument. -/
theorem hasArgument_iff {word cmdline : List UInt8} (hnul : 0 ∉ word) :
    HasArgument word cmdline ↔ word <:+: cmdline :=
  List.exists_infix_splitOn_iff hnul cmdline

/-- A VM stays out of the list exactly when its huge-page check is positive. -/
theorem staysOut_iff_hugePage (env : FileEnv) (name : String) :
    StaysOut env name ↔ 0 < (checkVMHasHugePage env (some (nameBytes name)) false).1 := by
  constructor
  · intro h
    by_contra hcode
    have hempty := h VmList.empty 0 true (some ⟨0, 0, 0⟩)
    have hinit : ∃ v, initAndCheckVM (some (processProbe env name (some ⟨0, 0, 0⟩) false))
        (newVM VmList.empty.nextAddr 0) = some v := by
      unfold initAndCheckVM processProbe
      dsimp only
      rw [if_neg (Int.not_lt.mpr (Int.not_lt.mp hcode))]
      exact ⟨_, rfl⟩
    obtain ⟨v, hv⟩ := hinit
    unfold findAddVMToList at hempty
    rw [if_neg (by simp [VmList.empty]), if_neg (by decide), hv] at hempty
    cases hempty
  · intro hcode l domid alloc info
    have hinit : ∀ v, initAndCheckVM (some (processProbe env name info false)) v = none := by
      intro v
      unfold initAndCheckVM processProbe
      dsimp only
      rw [if_pos hcode]
    unfold findAddVMToList
    rw [hinit]
    split
    · rfl
    · split <;> rfl

section Process

variable {env : FileEnv} {name : String} {digits cmdline : List UInt8}

/-- With a pid and a command line that can be read, what counts is the part that is read. -/
theorem staysOut_iff_occurs (hcalloc : ∀ n, env.calloc n = true)
    (hfile : env.read (pidFilePath (nameBytes name)) = some digits) (hlen : digits.length ≤ 63)
    (hdigits : ∀ c ∈ digits, isDigit c = true) (hpos : 0 < decimal digits)
    (hint : InInt (decimal digits))
    (hcmdline : env.read (cmdlinePath (Int32.ofInt (decimal digits))) = some cmdline)
    (hne : cmdline ≠ []) :
    StaysOut env name ↔ bytes "prealloc" <:+: cmdline.take (memlinkArgMax - 1) := by
  have hdigitsne : digits ≠ [] := by
    rintro rfl
    exact absurd hpos (by decide)
  have hpid := env.pidNumber_eq (hcalloc 64) hfile hdigitsne hlen hdigits
  have hline := env.line_eq (by decide) (hcalloc memlinkArgMax) hcmdline hne
  rw [staysOut_iff_hugePage]
  unfold checkVMHasHugePage
  rw [checkString_eq hpid (Int.natCast_pos.mpr hpos) hint hline (by decide +kernel)
    (by decide +kernel) (by decide +kernel) (by decide +kernel)]
  dsimp only
  split
  · next hfound => simp [hfound]
  · next hfound => simp [hfound]

/-- When a huge-page VM stays out of the list: with a pid file that holds a positive `int` in
up to 63 digits, a command line that can be read, of any length, and working allocation, a VM
that has an argument containing `prealloc` is not inserted exactly when such an argument is
among the first 13071 bytes of the command line. -/
theorem hugePage_staysOut_iff (hcalloc : ∀ n, env.calloc n = true)
    (hfile : env.read (pidFilePath (nameBytes name)) = some digits) (hlen : digits.length ≤ 63)
    (hdigits : ∀ c ∈ digits, isDigit c = true) (hpos : 0 < decimal digits)
    (hint : InInt (decimal digits))
    (hcmdline : env.read (cmdlinePath (Int32.ofInt (decimal digits))) = some cmdline) :
    (HasArgument (bytes "prealloc") cmdline → StaysOut env name) ↔
      (HasArgument (bytes "prealloc") cmdline →
        HasArgument (bytes "prealloc") (cmdline.take 13071)) := by
  have hnul : 0 ∉ bytes "prealloc" := by decide +kernel
  refine forall_congr' fun harg ↦ ?_
  have hne : cmdline ≠ [] := by
    rintro rfl
    have hnil := List.eq_nil_of_infix_nil ((hasArgument_iff hnul).mp harg)
    exact absurd hnil (by decide +kernel)
  rw [staysOut_iff_occurs hcalloc hfile hlen hdigits hpos hint hcmdline hne, hasArgument_iff hnul]
  rfl

end Process

/-- The process 7 of a VM with a command line. -/
def processEnv (cmdline : List UInt8) : FileEnv :=
  .ofFiles [(pidFilePath (nameBytes "vm"), bytes "7"), (cmdlinePath 7, cmdline)]
    (by simp; decide +kernel)

private theorem processEnv_pid (cmdline : List UInt8) :
    (processEnv cmdline).read (pidFilePath (nameBytes "vm")) = some (bytes "7") := by
  unfold processEnv
  rw [FileEnv.ofFiles_read, List.lookup_cons_self]

private theorem processEnv_cmdline (cmdline : List UInt8) :
    (processEnv cmdline).read (cmdlinePath 7) = some cmdline := by
  have hother : (cmdlinePath 7 == pidFilePath (nameBytes "vm")) = false := by decide +kernel
  unfold processEnv
  rw [FileEnv.ofFiles_read, List.lookup_cons, hother]
  dsimp only
  rw [List.lookup_cons_self]

/-- A short command line. -/
def preallocArguments : List UInt8 := bytes "qemu" ++ 0 :: bytes "-mem-prealloc"

/-- A VM with a short command line stays out. -/
theorem hugePage_staysOut_short : StaysOut (processEnv preallocArguments) "vm" := by
  have hshort : HasArgument (bytes "prealloc") (preallocArguments.take 13071) :=
    (hasArgument_iff (by decide +kernel)).mpr (by decide +kernel)
  exact (hugePage_staysOut_iff (fun _ ↦ rfl) (processEnv_pid preallocArguments) (by decide +kernel)
    (by decide +kernel) (by decide +kernel) (by decide +kernel)
    (processEnv_cmdline preallocArguments)).mpr (fun _ ↦ hshort)
    ((hasArgument_iff (by decide +kernel)).mpr (by decide +kernel))

/-- A command line whose `prealloc` stands behind what is read. -/
def farPrealloc : List UInt8 := List.replicate 13071 'a'.toUInt8 ++ bytes "prealloc"

/-- A huge-page VM with a long command line is inserted. -/
theorem far_prealloc_inserted :
    ¬ ∀ (env : FileEnv) (name : String) (digits cmdline : List UInt8),
      (∀ n, env.calloc n = true) → env.read (pidFilePath (nameBytes name)) = some digits →
      digits.length ≤ 63 → (∀ c ∈ digits, isDigit c = true) → 0 < decimal digits →
      InInt (decimal digits) →
      env.read (cmdlinePath (Int32.ofInt (decimal digits))) = some cmdline →
      HasArgument (bytes "prealloc") cmdline → StaysOut env name := by
  intro h
  have hout := h (processEnv farPrealloc) "vm" (bytes "7") farPrealloc (fun _ ↦ rfl)
    (processEnv_pid farPrealloc) (by decide +kernel) (by decide +kernel) (by decide +kernel)
    (by decide +kernel) (processEnv_cmdline farPrealloc)
    ((hasArgument_iff (by decide +kernel)).mpr List.infix_append_right)
  have hne : farPrealloc ≠ [] := by
    intro h
    exact absurd (List.append_eq_nil_iff.mp h).2 (by decide +kernel)
  rw [staysOut_iff_occurs (fun _ ↦ rfl) (processEnv_pid farPrealloc) (by decide +kernel)
    (by decide +kernel) (by decide +kernel) (by decide +kernel)
    (processEnv_cmdline farPrealloc) hne] at hout
  have hread : farPrealloc.take (memlinkArgMax - 1) = List.replicate 13071 'a'.toUInt8 :=
    List.take_left' List.length_replicate
  rw [hread] at hout
  have hp : 'p'.toUInt8 ∈ List.replicate 13071 'a'.toUInt8 := hout.subset (by decide +kernel)
  exact absurd (List.eq_of_mem_replicate hp) (by decide)

end Memlink
