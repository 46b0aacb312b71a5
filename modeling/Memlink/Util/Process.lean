import Memlink.Base.Decimal
import Memlink.Base.Segments

/-!
# Reading about a VM's process

`GetOneLineFromFile`, `GetQEMUPidByVMName` (`util.c:84–197`), `ContainOneOfTokens` and
`CheckString` with the checks made of it (`util.c:447–545`). As in the configuration reader,
`errno` is state of the thread and the model carries whether it is `ERANGE`: a failed
`calloc`, `realpath` or `fopen` leaves its own code there, and so may a `realpath` that
succeeds, when it asks `readlink` about a component that is no link.
-/

namespace Memlink

open CString

/-- `PATH_MAX`. -/
def pathMax : Nat := 4096

/-- `MEMLINK_ARG_MAX`. -/
def memlinkArgMax : Nat := 13072

/-- `MAX_BUF_LEN`. -/
def maxBufLen : Nat := 100

/-- `QEMU_PID_DIR`. -/
def qemuPidDir : List UInt8 := bytes "/var/run/libvirt/qemu/"

/-- The environment of the readers: the content of each file that can be opened, where a path
that does not fit `PATH_MAX` cannot, the success of `calloc` for a number of bytes, and
whether a successful `realpath` of a path leaves `errno` alone. -/
structure FileEnv where
  read : List UInt8 → Option (List UInt8)
  calloc : Nat → Bool
  keepsErrno : List UInt8 → Bool
  read_long : ∀ path, pathMax ≤ path.length → read path = none

/-- The environment in which some files can be read and every allocation succeeds. Each
`realpath` leaves the `EINVAL` of its last `readlink`. -/
def FileEnv.ofFiles (files : List (List UInt8 × List UInt8))
    (h : ∀ f ∈ files, f.1.length < pathMax) : FileEnv where
  read path := files.lookup path
  calloc _ := true
  keepsErrno _ := false
  read_long path hlong := by
    apply List.lookup_eq_none_iff.mpr
    intro f hf
    have hlt := h f hf
    rw [bne_iff_ne]
    rintro rfl
    omega

/-- Such an environment looks a path up. -/
theorem FileEnv.ofFiles_read (files : List (List UInt8 × List UInt8))
    (h : ∀ f ∈ files, f.1.length < pathMax) (path : List UInt8) :
    (FileEnv.ofFiles files h).read path = files.lookup path := rfl

/-- `GetOneLineFromFile`: the `*count` bytes read, and `errno` afterwards. The buffer behind
them is zero. -/
def getOneLineFromFile (env : FileEnv) (filename : List UInt8) (max : Nat) (errno : Bool) :
    Option (List UInt8) × Bool :=
  if max = 0 then (none, errno)
  else if env.calloc max = false then (none, false)
  else
    match env.read filename with
    | none => (none, false)
    | some content =>
      let errno := errno && env.keepsErrno filename
      let line := content.take (max - 1)
      if line.length = 0 then (none, errno) else (some line, errno)

/-- `"%s%s.pid"`. -/
def pidFilePath (vmName : List UInt8) : List UInt8 := qemuPidDir ++ vmName ++ bytes ".pid"

/-- `GetQEMUPidByVMName`: the result and `errno` afterwards. -/
def getQEMUPidByVMName (env : FileEnv) (vmName : Option (List UInt8)) (errno : Bool) :
    Int32 × Bool :=
  match vmName with
  | none => (-1, errno)
  | some vmName =>
    if pathMax ≤ (pidFilePath vmName).length then (-1, errno)
    else
      match getOneLineFromFile env (pidFilePath vmName) 64 errno with
      | (none, errno) => (-1, errno)
      | (some line, errno) =>
        if line.length ≥ pathMax ∨ line.length = 0 then (-1, errno)
        else
          let pidStr := ofBuffer line
          if pidStr.all isDigit then checkedLong (-1) pidStr errno else (-1, errno)

/-- The inner loop of `ContainOneOfTokens`, at index `i` with the memory from `ptr` on. -/
def scanToken (token : List UInt8) (count i : Nat) (ptr : List UInt8) : Bool :=
  if i < count then
    if (ofBuffer ptr).length = 0 then scanToken token count (i + 1) (ptr.drop 1)
    else if token <:+: ofBuffer ptr then true
    else scanToken token count (i + (ofBuffer ptr).length) (ptr.drop (ofBuffer ptr).length)
  else false
termination_by count - i

/-- `ContainOneOfTokens` on the memory at `strLine`. The tokens are those that
`strtok_s(tokens, ":", ..)` returns one after the other. -/
def containOneOfTokens (strLine : List UInt8) (count : Nat) (tokens : List UInt8) : Int :=
  if (tokens.parts ':'.toUInt8).any (fun token ↦ scanToken token count 0 strLine) then 1 else 0

/-- `"/proc/%ld/cmdline"`. -/
def cmdlinePath (pid : Int32) : List UInt8 :=
  bytes "/proc/" ++ printInt pid.toInt ++ bytes "/cmdline"

/-- `CheckString`: the result and `errno` afterwards. -/
def checkString (env : FileEnv) (vmName : Option (List UInt8)) (str : List UInt8)
    (errno : Bool) : Int × Bool :=
  match getQEMUPidByVMName env vmName errno with
  | (pid, errno) =>
    if pid ≤ 0 then (-1, errno)
    else
      match getOneLineFromFile env (cmdlinePath pid) memlinkArgMax errno with
      | (none, errno) => (-1, errno)
      | (some line, errno) =>
        if str.length ≥ maxBufLen then (-1, errno)
        else (containOneOfTokens (line ++ [0]) line.length str, errno)

/-- `CheckVMHasPassthroughDev`. -/
def checkVMHasPassthroughDev (env : FileEnv) (vmName : Option (List UInt8)) (errno : Bool) :
    Int × Bool :=
  checkString env vmName (bytes "vfio-pci:pci-assign") errno

/-- `CheckVMHasHugePage`. -/
def checkVMHasHugePage (env : FileEnv) (vmName : Option (List UInt8)) (errno : Bool) :
    Int × Bool :=
  checkString env vmName (bytes "prealloc") errno

/-- `CheckVMIsWindows`. -/
def checkVMIsWindows (env : FileEnv) (vmName : Option (List UInt8)) (errno : Bool) :
    Int × Bool :=
  checkString env vmName (bytes "hv_relaxed") errno

/-! ### The pid -/

/-- What `GetOneLineFromFile` reads of a file, if it can. -/
def FileEnv.line (env : FileEnv) (filename : List UInt8) (max : Nat) : Option (List UInt8) :=
  (getOneLineFromFile env filename max false).1

/-- The number that a pid file holds, if what is read of it consists of digits. -/
def FileEnv.pidNumber (env : FileEnv) (vmName : Option (List UInt8)) : Option Int :=
  vmName.bind fun vmName ↦
    (env.line (pidFilePath vmName) 64).bind fun line ↦
      if (ofBuffer line).all isDigit then some (decimal (ofBuffer line)) else none

/-- `errno` does not matter to what is read of a file. -/
theorem getOneLineFromFile_fst (env : FileEnv) (filename : List UInt8) (max : Nat)
    (errno : Bool) : (getOneLineFromFile env filename max errno).1 = env.line filename max := by
  unfold FileEnv.line getOneLineFromFile
  split
  · rfl
  · split
    · rfl
    · split
      · rfl
      · dsimp only
        split <;> rfl

/-- Reading leaves `errno` as `realpath` does, and what it delivers is a non-empty start of the
file. -/
theorem getOneLineFromFile_some {env : FileEnv} {filename line : List UInt8} {max : Nat}
    (h : env.line filename max = some line) (errno : Bool) :
    getOneLineFromFile env filename max errno =
        (some line, errno && env.keepsErrno filename) ∧ line ≠ [] ∧
      ∃ content, env.read filename = some content ∧ line = content.take (max - 1) := by
  unfold FileEnv.line getOneLineFromFile at h
  unfold getOneLineFromFile
  split at h
  · cases h
  · next hmax =>
    split at h
    · cases h
    · next hcalloc =>
      split at h
      · cases h
      · next content hread =>
        dsimp only at h
        split at h
        · cases h
        · next hlen =>
          obtain rfl := Option.some.inj h
          rw [if_neg hmax, if_neg hcalloc, hread]
          dsimp only
          rw [if_neg hlen]
          refine ⟨rfl, ?_, content, rfl, rfl⟩
          rintro hnil
          exact hlen (by rw [hnil, List.length_nil])

/-- A readable file yields its start. -/
theorem FileEnv.line_eq {env : FileEnv} {filename content : List UInt8} {max : Nat}
    (hmax : 1 < max) (hcalloc : env.calloc max = true) (hread : env.read filename = some content)
    (hne : content ≠ []) : env.line filename max = some (content.take (max - 1)) := by
  have hlen : (content.take (max - 1)).length ≠ 0 := by
    have := List.length_pos_iff.mpr hne
    rw [List.length_take]
    omega
  unfold FileEnv.line getOneLineFromFile
  rw [if_neg (by omega), if_neg (by simp [hcalloc]), hread]
  dsimp only
  rw [if_neg hlen]

/-- A digit string, also an empty one, is delivered as its value. -/
theorem checkedLong_digits {s : List UInt8} (hall : ∀ c ∈ s, isDigit c = true) (err : Int32)
    (errno : Bool) : checkedLong err s errno = narrowLong err (decimal s) errno := by
  cases s with
  | nil => cases errno <;> rfl
  | cons c s =>
    have hc := hall c List.mem_cons_self
    have hsign : sign ((c :: s).dropWhile isSpace) = (false, c :: s) := by
      rw [List.dropWhile_cons_of_neg (by simp [isSpace_of_isDigit hc]), sign,
        if_neg fun he ↦ absurd (he ▸ hc) (by decide), if_neg fun he ↦ absurd (he ▸ hc) (by decide)]
    exact checkedLong_eq hsign (List.cons_ne_nil c s) hall err errno

/-- A `realpath` of the pid file leaves `errno` alone. -/
def FileEnv.pidKeepsErrno (env : FileEnv) (vmName : Option (List UInt8)) : Bool :=
  vmName.all fun vmName ↦ env.keepsErrno (pidFilePath vmName)

/-- A pid file with a number: the number, narrowed. -/
theorem getQEMUPidByVMName_of_number {env : FileEnv} {vmName : Option (List UInt8)} {x : Int}
    (h : env.pidNumber vmName = some x) (errno : Bool) :
    getQEMUPidByVMName env vmName errno =
      narrowLong (-1) x (errno && env.pidKeepsErrno vmName) := by
  obtain ⟨vmName, rfl, hfile⟩ := Option.bind_eq_some_iff.mp h
  obtain ⟨line, hline, hnumber⟩ := Option.bind_eq_some_iff.mp hfile
  obtain ⟨hget, hne, content, hread, rfl⟩ := getOneLineFromFile_some hline errno
  have hpath : ¬ pathMax ≤ (pidFilePath vmName).length := by
    intro hlong
    rw [env.read_long _ hlong] at hread
    cases hread
  have hcount : ¬ ((content.take (64 - 1)).length ≥ pathMax ∨
      (content.take (64 - 1)).length = 0) := by
    have := List.length_pos_iff.mpr hne
    have hle := List.length_take_le (64 - 1) content
    unfold pathMax
    omega
  split at hnumber
  · next hdigits =>
    obtain rfl := Option.some.inj hnumber
    unfold getQEMUPidByVMName
    dsimp only
    rw [if_neg hpath, hget]
    dsimp only
    rw [if_neg hcount, if_pos hdigits, checkedLong_digits (List.all_eq_true.mp hdigits)]
    rfl
  · cases hnumber

/-- Without a number the result is the error code. -/
theorem getQEMUPidByVMName_of_none {env : FileEnv} {vmName : Option (List UInt8)}
    (h : env.pidNumber vmName = none) (errno : Bool) :
    (getQEMUPidByVMName env vmName errno).1 = -1 := by
  unfold getQEMUPidByVMName
  split
  · rfl
  · next vmName =>
    split
    · rfl
    · have hline := getOneLineFromFile_fst env (pidFilePath vmName) 64 errno
      split
      · rfl
      · next line errno' hget =>
        rw [hget] at hline
        split
        · rfl
        · dsimp only
          split
          · next hdigits =>
            rw [FileEnv.pidNumber, Option.bind_some, ← hline, Option.bind_some, if_pos hdigits] at h
            cases h
          · rfl

/-- A file of up to 63 digits holds their value. -/
theorem FileEnv.pidNumber_eq {env : FileEnv} {vmName content : List UInt8}
    (hcalloc : env.calloc 64 = true) (hread : env.read (pidFilePath vmName) = some content)
    (hne : content ≠ []) (hlen : content.length ≤ 63)
    (hdigits : ∀ c ∈ content, isDigit c = true) :
    env.pidNumber (some vmName) = some (decimal content : Int) := by
  have hnul : 0 ∉ content := fun hmem ↦ absurd (hdigits 0 hmem) (by decide)
  unfold FileEnv.pidNumber
  rw [Option.bind_some, FileEnv.line_eq (by decide) hcalloc hread hne, Option.bind_some,
    List.take_of_length_le hlen, ofBuffer_eq_self hnul, if_pos (List.all_eq_true.mpr hdigits)]

/-! ### Tokens -/

/-- A token is in the string at the start of some memory, or in what follows it. -/
theorem infix_segment_iff {token seg tail : List UInt8} (hne : token ≠ []) (hnul : 0 ∉ token)
    (htail : tail = [] ∨ ∃ more, tail = 0 :: more) :
    token <:+: seg ++ tail ↔ token <:+: seg ∨ token <:+: tail := by
  rcases htail with rfl | ⟨more, rfl⟩
  · simp [hne]
  · rw [List.infix_append_cons_iff_of_notMem hnul, List.infix_cons_iff_of_notMem hne hnul]

/-- The inner loop finds a token wherever it occurs. -/
theorem scanToken_eq {token : List UInt8} (hne : token ≠ []) (hnul : 0 ∉ token) {count i : Nat}
    {left : List UInt8} (hcount : i + left.length = count) (rest : List UInt8) :
    scanToken token count i (left ++ 0 :: rest) = decide (token <:+: left) := by
  -- The induction follows the index; `left` are the bytes from it to `count`.
  induction hlen : left.length using Nat.strongRecOn generalizing left i with
  | ind n ih =>
    rw [scanToken]
    obtain ⟨seg, tail, rfl, hseg, htail, hbuf⟩ := exists_segment left rest
    rw [List.length_append] at hcount hlen
    have hparts : decide (token <:+: seg ++ tail) =
        decide (token <:+: seg ∨ token <:+: tail) :=
      decide_eq_decide.mpr (infix_segment_iff hne hnul htail)
    rw [hbuf, List.append_assoc, hparts]
    by_cases hempty : seg = []
    · -- A NUL at `ptr`, or the end of the buffer.
      subst hempty
      rcases htail with rfl | ⟨more, rfl⟩
      · have hstop : ¬ i < count := by simp at hcount; omega
        rw [if_neg hstop]
        simp [hne]
      · rw [List.length_cons, List.length_nil] at hcount hlen
        rw [if_pos (by omega), if_pos List.length_nil, List.nil_append, List.cons_append,
          List.drop_succ_cons, List.drop_zero, ih more.length (by omega) (by omega) rfl]
        simp [hne, List.infix_cons_iff_of_notMem hne hnul]
    · have hpos : 0 < seg.length := List.length_pos_iff.mpr hempty
      have hrun : i < count := by omega
      rw [if_pos hrun, if_neg hpos.ne', List.drop_left, ih tail.length (by omega) (by omega) rfl]
      by_cases hfound : token <:+: seg <;> simp [hfound]

/-- A single token is found wherever it occurs. -/
theorem containOneOfTokens_single {token : List UInt8} (hne : token ≠ []) (hnul : 0 ∉ token)
    (hsep : ':'.toUInt8 ∉ token) (line : List UInt8) :
    containOneOfTokens (line ++ [0]) line.length token = if token <:+: line then 1 else 0 := by
  have hparts : token.parts ':'.toUInt8 = [token] := by
    unfold List.parts
    rw [List.splitOn_eq_singleton hsep]
    simp [hne]
  unfold containOneOfTokens
  rw [hparts, List.any_cons, List.any_nil, Bool.or_false,
    scanToken_eq hne hnul (Nat.zero_add line.length) []]
  simp only [decide_eq_true_eq]

/-! ### Classification -/

section Readable

variable {env : FileEnv} {vmName : Option (List UInt8)} {p : Int} {line : List UInt8}
  (hpid : env.pidNumber vmName = some p) (hpos : 0 < p) (hint : InInt p)
  (hline : env.line (cmdlinePath (Int32.ofInt p)) memlinkArgMax = some line)

include hpid hpos hint hline

/-- The check of a process whose pid and command line can be read. -/
theorem checkString_of_line {str : List UInt8} (hlen : str.length < maxBufLen) :
    checkString env vmName str false =
      (containOneOfTokens (line ++ [0]) line.length str, false) := by
  have hpositive : ¬ Int32.ofInt p ≤ 0 := by
    rw [Int32.le_iff_toInt_le, toInt_ofInt_of_inInt hint]
    exact Int.not_le.mpr hpos
  unfold checkString
  rw [getQEMUPidByVMName_of_number hpid, Bool.false_and]
  unfold narrowLong
  rw [if_pos ⟨hint.inLong, rfl⟩]
  dsimp only
  rw [if_neg hpositive, (getOneLineFromFile_some hline false).1]
  dsimp only
  rw [if_neg (Nat.not_le.mpr hlen), Bool.false_and]

/-- The check for a single token. -/
theorem checkString_eq {token : List UInt8} (hne : token ≠ []) (hnul : 0 ∉ token)
    (hsep : ':'.toUInt8 ∉ token) (hlen : token.length < maxBufLen) :
    checkString env vmName token false = (if token <:+: line then 1 else 0, false) := by
  rw [checkString_of_line hpid hpos hint hline hlen, containOneOfTokens_single hne hnul hsep]

end Readable

/-- The result of a check depends on `errno` through the pid only. -/
theorem checkString_fst_congr {env : FileEnv} {vmName : Option (List UInt8)} {errno errno' : Bool}
    (h : (getQEMUPidByVMName env vmName errno).1 = (getQEMUPidByVMName env vmName errno').1)
    (str : List UInt8) :
    (checkString env vmName str errno).1 = (checkString env vmName str errno').1 := by
  unfold checkString
  generalize getQEMUPidByVMName env vmName errno = r at h ⊢
  generalize getQEMUPidByVMName env vmName errno' = r' at h ⊢
  obtain ⟨pid, e⟩ := r
  obtain ⟨pid', e'⟩ := r'
  obtain rfl : pid = pid' := h
  dsimp only
  split
  · rfl
  · have hline := getOneLineFromFile_fst env (cmdlinePath pid) memlinkArgMax
    have he := hline e
    have he' := hline e'
    generalize getOneLineFromFile env (cmdlinePath pid) memlinkArgMax e = l at he ⊢
    generalize getOneLineFromFile env (cmdlinePath pid) memlinkArgMax e' = l' at he' ⊢
    obtain ⟨line, f⟩ := l
    obtain ⟨line', f'⟩ := l'
    obtain rfl : line = line' := he.trans he'.symm
    cases line with
    | none => rfl
    | some line =>
      dsimp only
      split <;> rfl

end Memlink
