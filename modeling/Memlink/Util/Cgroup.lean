import Memlink.Base.LineInput
import Memlink.Base.StringScan
import Memlink.Util.Process

/-!
# The memory cgroup of a VM

`GetProcCgroupPath`, `GetCgroupFilePath`, `ReadCgroupPathU64` and `GetQEMUMemoryUsage`
(`util.c:199–305`, `397–431`). The kernel writes `/proc/<pid>/cgroup` as one line
`id:controllers:path` for each hierarchy; `GetCgroupFilePath` takes the lines apart with
`strtok_s`, which skips empty fields, and cuts the last byte off the third token.
-/

namespace Memlink

open CString

/-- `CGROUP_MEMORY_DIR`. -/
def cgroupMemoryDir : List UInt8 := bytes "/sys/fs/cgroup/memory"

/-- `PATH_MAX_SIZE`. -/
def pathMaxSize : Nat := 4096

/-- `":"`. -/
def colon : UInt8 := ':'.toUInt8

/-- `"/proc/%d/cgroup"`. -/
def procCgroupPath (pid : Int32) : List UInt8 :=
  bytes "/proc/" ++ printInt pid.toInt ++ bytes "/cgroup"

/-- `GetProcCgroupPath`: the path, and `errno` afterwards. -/
def getProcCgroupPath (env : FileEnv) (vmName : Option (List UInt8)) (errno : Bool) :
    Option (List UInt8) × Bool :=
  match getQEMUPidByVMName env vmName errno with
  | (pid, errno) => if pid < 0 then (none, errno) else (some (procCgroupPath pid), errno)

/-- `strtok_s(NULL, ":", &nextToken)`; after a `NULL` it goes on returning `NULL`. -/
def nextToken : Option (List UInt8 × List UInt8) → Option (List UInt8 × List UInt8)
  | none => none
  | some (_, next) => (strtokS colon next).join

/-- The loop over the lines of `/proc/<pid>/cgroup` and the token after it: the third token of
the first line whose second one is `memory`. -/
def memoryToken : List (List UInt8) → Option (List UInt8)
  | [] => none
  | line :: lines =>
    let id := (strtokS colon (line ++ [0])).join
    match nextToken id with
    | none => none
    | some controller =>
      if controller.1 = bytes "memory" then (nextToken (some controller)).map (·.1)
      else memoryToken lines

/-- `"%s%s/memory.%s_in_bytes"`. -/
def memoryFilePath (token type : List UInt8) : List UInt8 :=
  cgroupMemoryDir ++ token ++ bytes "/memory." ++ type ++ bytes "_in_bytes"

/-- `GetCgroupFilePath`: the path, and `errno` afterwards. A path that does not fit the buffer
makes `snprintf_s` fail. -/
def getCgroupFilePath (env : FileEnv) (vmName : Option (List UInt8)) (type : List UInt8)
    (errno : Bool) : Option (List UInt8) × Bool :=
  match getProcCgroupPath env vmName errno with
  | (none, errno) => (none, errno)
  | (some procPath, errno) =>
    match env.read procPath with
    | none => (none, false)
    | some content =>
      match memoryToken (fgetsLines pathMaxSize content) with
      | none => (none, errno)
      | some token =>
        -- `token[size - 1] = '\0'`
        let path := memoryFilePath token.dropLast type
        if path.length < pathMaxSize then (some path, errno) else (none, errno)

/-- `fscanf_s(fp, "%llu", val)` on what is in the file; `none` if nothing is converted. A minus
sign negates modulo `2^64`; what is stored for a number above `ULLONG_MAX` is up to the library. -/
def scanUll (beyond : Nat → UInt64) (content : List UInt8) : Option UInt64 :=
  let (negative, body) := sign (content.dropWhile isSpace)
  let digits := body.takeWhile isDigit
  if digits = [] then none
  else if 2 ^ 64 ≤ decimal digits then some (beyond (decimal digits))
  else some (UInt64.ofInt (if negative then -decimal digits else decimal digits))

/-- `ReadCgroupPathU64`. -/
def readCgroupPathU64 (beyond : Nat → UInt64) (env : FileEnv) (path : List UInt8) :
    Option UInt64 :=
  (env.read path).bind (scanUll beyond)

/-- `GetQEMUMemoryUsage`, in KiB. -/
def getQEMUMemoryUsage (beyond : Nat → UInt64) (env : FileEnv) (vmName : Option (List UInt8))
    (errno : Bool) : Option UInt64 :=
  if env.calloc pathMaxSize = false then none
  else
    match (getCgroupFilePath env vmName (bytes "usage") errno).1 with
    | none => none
    | some usagePath =>
      (readCgroupPathU64 beyond env usagePath).map fun usage ↦ usage >>> (10 : UInt64)

/-! ### What the kernel writes -/

/-- A line of `/proc/<pid>/cgroup`. The controllers of the unified hierarchy are empty. -/
structure CgroupEntry where
  id : List UInt8
  controllers : List UInt8
  path : List UInt8
  id_ne_nil : id ≠ []
  id_plain : ∀ c ∈ id, isDigit c = true
  controllers_plain : ∀ c ∈ controllers, c ≠ colon ∧ c ≠ '\n'.toUInt8 ∧ c ≠ 0
  path_root : path.head? = some '/'.toUInt8
  path_plain : ∀ c ∈ path, c ≠ '\n'.toUInt8 ∧ c ≠ 0
  fits : id.length + controllers.length + path.length + 3 < pathMaxSize

/-- The line without its newline. -/
def CgroupEntry.text (e : CgroupEntry) : List UInt8 :=
  e.id ++ colon :: (e.controllers ++ colon :: e.path)

/-- The file. -/
def renderCgroup (entries : List CgroupEntry) : List UInt8 :=
  entries.flatMap fun e ↦ e.text ++ ['\n'.toUInt8]

/-- The part of a path that `GetCgroupFilePath` uses: all of it, or what comes before the first
colon without its last byte. -/
def CgroupEntry.used (e : CgroupEntry) : List UInt8 :=
  if colon ∈ e.path then (e.path.takeWhile (· ≠ colon)).dropLast else e.path

/-! ### Taking the lines apart -/

/-- The token that `GetCgroupFilePath` finds behind the controllers. -/
def CgroupEntry.pathToken (e : CgroupEntry) : List UInt8 :=
  if colon ∈ e.path then e.path.takeWhile (· ≠ colon) else e.path ++ ['\n'.toUInt8]

/-- Cutting its last byte off leaves the part of the path that is used. -/
theorem CgroupEntry.pathToken_dropLast (e : CgroupEntry) : e.pathToken.dropLast = e.used := by
  unfold pathToken used
  split
  · rfl
  · exact List.dropLast_concat

/-- A line has no newline and no NUL. -/
theorem CgroupEntry.text_plain (e : CgroupEntry) :
    ∀ c ∈ e.text, c ≠ '\n'.toUInt8 ∧ c ≠ 0 := by
  intro c hc
  simp only [text, List.mem_append, List.mem_cons] at hc
  rcases hc with hid | rfl | hctrl | rfl | hpath
  · have hdigit := e.id_plain c hid
    constructor
    · rintro rfl
      revert hdigit
      decide
    · rintro rfl
      revert hdigit
      decide
  · decide
  · exact (e.controllers_plain c hctrl).2
  · decide
  · exact e.path_plain c hpath

/-- `fgets` reads the file line by line. -/
theorem fgetsLines_renderCgroup (entries : List CgroupEntry) :
    fgetsLines pathMaxSize (renderCgroup entries) =
      entries.map fun e ↦ e.text ++ ['\n'.toUInt8] := by
  induction entries with
  | nil => rfl
  | cons e entries ih =>
    have hlen : e.text.length < pathMaxSize - 1 := by
      have hfits := e.fits
      simp only [CgroupEntry.text, List.length_append, List.length_cons]
      omega
    have hnl : '\n'.toUInt8 ∉ e.text := fun hmem ↦ (e.text_plain _ hmem).1 rfl
    rw [renderCgroup, List.flatMap_cons, fgetsLines_append (fills_line hnl hlen _), List.map_cons]
    exact congrArg _ ih

/-- The text of a path up to a colon, or with its newline, is a token. -/
theorem CgroupEntry.strtokS_path (e : CgroupEntry) :
    ∃ next, strtokS colon (e.path ++ ['\n'.toUInt8] ++ [0]) = some (some (e.pathToken, next)) := by
  have hroot := e.path_root
  have hplain := e.path_plain
  unfold pathToken
  by_cases hc : colon ∈ e.path
  · obtain ⟨seg, rest, hpath, hseg⟩ := List.eq_append_cons_of_mem hc
    have hne : seg ≠ [] := by
      rintro rfl
      rw [hpath] at hroot
      revert hroot
      simp only [List.nil_append, List.head?_cons]
      decide
    have hnul : 0 ∉ seg := by
      intro hmem
      exact (hplain 0 (by rw [hpath]; exact List.mem_append_left _ hmem)).2 rfl
    have htake : e.path.takeWhile (· ≠ colon) = seg := by
      have hall : ∀ c ∈ seg, decide (c ≠ colon) = true := by
        intro c hmem
        simpa using fun he : c = colon ↦ hseg (he ▸ hmem)
      rw [hpath, List.takeWhile_append_of_pos hall]
      simp
    refine ⟨rest ++ ['\n'.toUInt8] ++ [0], ?_⟩
    rw [if_pos hc, htake, hpath, List.append_assoc, List.append_assoc, List.cons_append,
      strtokS_segment hne hseg hnul (by decide), List.append_assoc]
  · refine ⟨[0], ?_⟩
    rw [if_neg hc]
    apply strtokS_last
    · simp
    · simpa [hc] using (by decide : colon ≠ '\n'.toUInt8)
    · intro hmem
      rcases List.mem_append.mp hmem with hmem | hmem
      · exact (hplain 0 hmem).2 rfl
      · revert hmem
        decide

/-- A path is not mistaken for the name of the controller. -/
theorem CgroupEntry.pathToken_ne_memory (e : CgroupEntry) : e.pathToken ≠ bytes "memory" := by
  have hhead : e.pathToken.head? = some '/'.toUInt8 := by
    have hroot := e.path_root
    unfold pathToken
    cases hpath : e.path with
    | nil =>
      rw [hpath] at hroot
      cases hroot
    | cons c path =>
      rw [hpath, List.head?_cons] at hroot
      obtain rfl := Option.some.inj hroot
      split
      · rw [List.takeWhile_cons_of_pos (by decide)]
        rfl
      · rfl
  intro heq
  rw [heq] at hhead
  revert hhead
  decide

/-- `GetCgroupFilePath` leaves the loop at a line of the memory controller alone, and passes every
other. -/
theorem memoryToken_cons (e : CgroupEntry) (lines : List (List UInt8)) :
    memoryToken ((e.text ++ ['\n'.toUInt8]) :: lines) =
      if e.controllers = bytes "memory" then some e.pathToken else memoryToken lines := by
  obtain ⟨next, hpath⟩ := e.strtokS_path
  have hidc : colon ∉ e.id := by
    intro hmem
    have hdigit := e.id_plain _ hmem
    revert hdigit
    decide
  have hidz : 0 ∉ e.id := by
    intro hmem
    have hdigit := e.id_plain _ hmem
    revert hdigit
    decide
  have hid : strtokS colon (e.text ++ ['\n'.toUInt8] ++ [0]) =
      some (some (e.id, e.controllers ++ colon :: (e.path ++ ['\n'.toUInt8] ++ [0]))) := by
    simp only [CgroupEntry.text, List.append_assoc, List.cons_append]
    exact strtokS_segment e.id_ne_nil hidc hidz (by decide) _
  rw [memoryToken]
  simp only [hid, Option.join_some, nextToken]
  by_cases hctrl : e.controllers = []
  · -- An empty field is no token: the second token is the path.
    have hempty : e.controllers ≠ bytes "memory" := by
      rw [hctrl]
      decide
    rw [if_neg hempty, hctrl, List.nil_append, strtokS_cons_sep, hpath]
    simp only [Option.join_some, if_neg e.pathToken_ne_memory]
  · have hctrlc : colon ∉ e.controllers := fun hmem ↦ (e.controllers_plain _ hmem).1 rfl
    have hctrlz : 0 ∉ e.controllers := fun hmem ↦ (e.controllers_plain _ hmem).2.2 rfl
    rw [strtokS_segment hctrl hctrlc hctrlz (by decide)]
    simp only [Option.join_some, hpath, Option.map_some]

/-- On a file that the kernel wrote, the loop finds the hierarchy of the memory controller. -/
theorem memoryToken_render (entries : List CgroupEntry) :
    memoryToken (fgetsLines pathMaxSize (renderCgroup entries)) =
      (entries.find? fun e ↦ e.controllers = bytes "memory").map (·.pathToken) := by
  rw [fgetsLines_renderCgroup]
  induction entries with
  | nil => rfl
  | cons e entries ih =>
    rw [List.map_cons, memoryToken_cons, ih]
    by_cases hctrl : e.controllers = bytes "memory"
    · rw [if_pos hctrl, List.find?_cons_of_pos (by simpa using hctrl)]
      rfl
    · rw [if_neg hctrl, List.find?_cons_of_neg (by simpa using hctrl)]

/-- A number that is followed by something else is read as it was printed. -/
theorem scanUll_printNat (beyond : Nat → UInt64) {n : Nat} (hn : n < 2 ^ 64) {c : UInt8}
    (hc : isDigit c = false) (rest : List UInt8) :
    scanUll beyond (printNat n ++ c :: rest) = some (UInt64.ofNat n) := by
  have hall : ∀ d ∈ printNat n, isDigit d = true := fun d hd ↦ isDigit_of_mem_printNat hd
  have htake : (printNat n ++ c :: rest).takeWhile isDigit = printNat n := by
    rw [List.takeWhile_append_of_pos hall, List.takeWhile_cons_of_neg (by simp [hc]),
      List.append_nil]
  have hsign : sign ((printNat n ++ c :: rest).dropWhile isSpace) =
      (false, printNat n ++ c :: rest) := by
    cases hprint : printNat n with
    | nil => exact absurd hprint (printNat_ne_nil n)
    | cons d digits =>
      have hd := hall d (by rw [hprint]; exact List.mem_cons_self)
      rw [List.cons_append, List.dropWhile_cons_of_neg (by simp [isSpace_of_isDigit hd])]
      exact sign_of_isDigit hd _
  unfold scanUll
  rw [hsign]
  dsimp only
  rw [htake, if_neg (printNat_ne_nil n), decimal_printNat, if_neg (by omega)]
  simp only [Bool.false_eq_true, if_false, UInt64.ofInt]
  rw [Int.emod_eq_of_lt (Int.natCast_nonneg n) (by omega), Int.toNat_natCast]

private theorem shift_ofNat {n : Nat} (hn : n < 2 ^ 64) :
    UInt64.ofNat n >>> (10 : UInt64) = UInt64.ofNat (n / 1024) := by
  apply UInt64.toNat_inj.mp
  have hshift : (10 : UInt64).toNat % 64 = 10 := rfl
  rw [UInt64.toNat_shiftRight, hshift, UInt64.toNat_ofNat', UInt64.toNat_ofNat',
    Nat.mod_eq_of_lt hn, Nat.mod_eq_of_lt (by omega)]
  exact Nat.shiftRight_eq_div_pow n 10

private theorem usage_of_entries (beyond : Nat → UInt64) (env : FileEnv)
    (vmName : Option (List UInt8)) (errno : Bool) {pid : Int32}
    (halloc : env.calloc pathMaxSize = true)
    (hpid : (getQEMUPidByVMName env vmName errno).1 = pid) (hpos : 0 ≤ pid)
    {entries : List CgroupEntry}
    (hproc : env.read (procCgroupPath pid) = some (renderCgroup entries)) :
    getQEMUMemoryUsage beyond env vmName errno =
      (entries.find? fun e ↦ e.controllers = bytes "memory").bind fun e ↦
        (readCgroupPathU64 beyond env (memoryFilePath e.used (bytes "usage"))).map
          fun usage ↦ usage >>> (10 : UInt64) := by
  have hneg : ¬ pid < 0 := Int32.not_lt.mpr hpos
  have hpath : getProcCgroupPath env vmName errno =
      (some (procCgroupPath pid), (getQEMUPidByVMName env vmName errno).2) := by
    unfold getProcCgroupPath
    simp only [hpid, if_neg hneg]
  unfold getQEMUMemoryUsage getCgroupFilePath
  rw [if_neg (by simp [halloc]), hpath]
  simp only [hproc, memoryToken_render]
  cases hfind : entries.find? fun e ↦ e.controllers = bytes "memory" with
  | none => rfl
  | some e =>
    simp only [Option.map_some, Option.bind_some, e.pathToken_dropLast]
    by_cases hlen : (memoryFilePath e.used (bytes "usage")).length < pathMaxSize
    · rw [if_pos hlen]
    · -- Such a path cannot be opened anyway.
      rw [if_neg hlen]
      have hlong := env.read_long _ (Nat.not_lt.mp hlen)
      simp only [readCgroupPathU64, hlong, Option.bind_none, Option.map_none]

/-- A VM's memory usage, for every content of the files the kernel provides: the first hierarchy
with the memory controller alone names the file, and what is read there is divided by 1024. A path
with a colon is cut, one without is used whole. -/
theorem getQEMUMemoryUsage_reads (beyond : Nat → UInt64) (env : FileEnv)
    (vmName : Option (List UInt8)) (errno : Bool) (pid : Int32)
    (halloc : env.calloc pathMaxSize = true)
    (hpid : (getQEMUPidByVMName env vmName errno).1 = pid) (hpos : 0 ≤ pid)
    (entries : List CgroupEntry)
    (hproc : env.read (procCgroupPath pid) = some (renderCgroup entries)) :
    getQEMUMemoryUsage beyond env vmName errno =
      ((entries.find? fun e ↦ e.controllers = bytes "memory").bind fun e ↦
        (readCgroupPathU64 beyond env (memoryFilePath e.used (bytes "usage"))).map
          fun usage ↦ usage >>> (10 : UInt64)) ∧
    ∀ e n, (entries.find? fun e ↦ e.controllers = bytes "memory") = some e → colon ∉ e.path →
      n < 2 ^ 64 → env.read (memoryFilePath e.path (bytes "usage")) =
        some (printNat n ++ ['\n'.toUInt8]) →
      getQEMUMemoryUsage beyond env vmName errno = some (UInt64.ofNat (n / 1024)) := by
  have heq := usage_of_entries beyond env vmName errno halloc hpid hpos hproc
  refine ⟨heq, fun e n hfind hcolon hn hread ↦ ?_⟩
  have hused : e.used = e.path := if_neg hcolon
  rw [heq, hfind, Option.bind_some, hused, readCgroupPathU64, hread, Option.bind_some,
    scanUll_printNat beyond hn (by decide), Option.map_some, shift_ofNat hn]

/-- A line of a file that is given as text. -/
def CgroupEntry.ofText (id controllers path : String)
    (h : (bytes id ≠ [] ∧ (∀ c ∈ bytes id, isDigit c = true) ∧
      (∀ c ∈ bytes controllers, c ≠ colon ∧ c ≠ '\n'.toUInt8 ∧ c ≠ 0) ∧
      (bytes path).head? = some '/'.toUInt8 ∧ (∀ c ∈ bytes path, c ≠ '\n'.toUInt8 ∧ c ≠ 0) ∧
      (bytes id).length + (bytes controllers).length + (bytes path).length + 3 < pathMaxSize)) :
    CgroupEntry :=
  ⟨bytes id, bytes controllers, bytes path, h.1, h.2.1, h.2.2.1, h.2.2.2.1, h.2.2.2.2.1,
    h.2.2.2.2.2⟩

/-- The hierarchies of a VM on a host with both versions mounted. -/
def mixedHierarchies : List CgroupEntry :=
  [.ofText "0" "" "/machine.slice" (by decide +kernel),
    .ofText "5" "cpu,cpuacct" "/machine.slice/vm" (by decide +kernel),
    .ofText "4" "memory" "/machine.slice/vm" (by decide +kernel)]

/-- The files of that VM, whose process has the pid 42 and uses 5 GiB. -/
def mixedHost : FileEnv :=
  .ofFiles [(bytes "/var/run/libvirt/qemu/vm.pid", bytes "42"),
    (bytes "/proc/42/cgroup", renderCgroup mixedHierarchies),
    (bytes "/sys/fs/cgroup/memory/machine.slice/vm/memory.usage_in_bytes", bytes "5368709120\n")]
    (by decide +kernel)

/-- Its usage is found. -/
theorem getQEMUMemoryUsage_reads_mixed :
    getQEMUMemoryUsage (fun _ ↦ 0) mixedHost (some (bytes "vm")) false = some 5242880 := by
  have hreads := getQEMUMemoryUsage_reads (fun _ ↦ 0) mixedHost (some (bytes "vm")) false 42 rfl
    (by decide +kernel) (by decide) mixedHierarchies (by decide +kernel)
  rw [hreads.1]
  decide +kernel

end Memlink
