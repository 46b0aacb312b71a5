import Memlink.Base.Decimal
import Memlink.Config.Lookup

/-!
# Rewriting a setting

`SetValueToCfg` and `CopyToFile` (`memlink_driver.c:402–481`). The configuration file is
copied to a temporary file, buffer by buffer, and renamed over; lines that contain the key
anywhere are taken apart by `sscanf_s` and printed again. `tmpkey` and `tmpValue` keep what
an earlier line left in them when a line matches the format only in part.
-/

namespace Memlink

open CString

/-- What is left open about `sscanf_s`: the buffer of `%[` after it matched nothing, which may
have been cleared, and the value that `%d` stores for a number that does not fit. -/
structure Sscanf where
  noMatch : List UInt8 → List UInt8
  overflow : Int → Int32
  noMatch_cases : ∀ tmpkey, noMatch tmpkey = tmpkey ∨ noMatch tmpkey = []

/-- The variables of `CopyToFile` that outlive an iteration. -/
structure CopyState where
  tmpkey : List UInt8
  tmpValue : Int32
  deriving DecidableEq, Repr

/-- `tmpkey` and `tmpValue` as they are declared. -/
def CopyState.initial : CopyState := ⟨[], 0⟩

/-- The number that `%d` reads, if there is one. -/
def scanInt (s : List UInt8) : Option Int :=
  let (negative, body) := sign (s.dropWhile isSpace)
  let digits := body.takeWhile isDigit
  if digits = [] then none else some (if negative then -decimal digits else decimal digits)

/-- What `%d` stores. -/
def Sscanf.value (scan : Sscanf) (x : Int) : Int32 :=
  if InInt x then Int32.ofInt x else scan.overflow x

/-- `sscanf_s(line, "%[^=]=%d\n", tmpkey, LINE_MAX_CHAR, &tmpValue)`; `none` is a negative
result, for an empty line. -/
def scanLine (scan : Sscanf) (s : CopyState) (line : List UInt8) : Option CopyState :=
  if line = [] then none
  else
    let tmpkey := line.takeWhile (· ≠ '='.toUInt8)
    if tmpkey = [] then some { s with tmpkey := scan.noMatch s.tmpkey }
    else
      match afterEquals line with
      | none => some { s with tmpkey := tmpkey }
      | some p =>
        match scanInt p with
        | none => some { s with tmpkey := tmpkey }
        | some x => some ⟨tmpkey, scan.value x⟩

/-- `"%s=%d\n"`. -/
def printLine (s : CopyState) : List UInt8 :=
  s.tmpkey ++ '='.toUInt8 :: (printInt s.tmpValue.toInt ++ ['\n'.toUInt8])

/-- The lines that `CopyToFile` takes apart. -/
def IsRewritten (key line : List UInt8) : Prop :=
  line.head? ≠ some '#'.toUInt8 ∧ line.head? ≠ some '\n'.toUInt8 ∧ key <:+: line

instance (key line : List UInt8) : Decidable (IsRewritten key line) :=
  inferInstanceAs (Decidable (_ ∧ _ ∧ _))

/-- One iteration of the loop of `CopyToFile`: what it leaves in the variables and what it
writes; `none` if the line cannot be parsed. -/
def copyLine (scan : Sscanf) (key : List UInt8) (valueChanged : Int32) (s : CopyState)
    (line : List UInt8) : Option (CopyState × List UInt8) :=
  if IsRewritten key line then
    match scanLine scan s line with
    | none => none
    | some s =>
      let s := if s.tmpkey = key then { s with tmpValue := valueChanged } else s
      some (s, printLine s)
  else some (s, line)

/-- The outcomes of the file operations and of `memset_s`; the writes and clearings are
counted from 0. -/
structure FileOps where
  openIn : Bool
  openOut : Bool
  write : Nat → Bool
  memset : Nat → Bool
  close : Bool
  rename : Bool

/-- Every operation succeeds. -/
def FileOps.ok : FileOps := ⟨true, true, fun _ ↦ true, fun _ ↦ true, true, true⟩

/-- `CopyToFile` from the `i`-th line on: whether it returns 0, and what it gave to `fpOut`. -/
def copyToFile (scan : Sscanf) (ops : FileOps) (key : List UInt8) (valueChanged : Int32) :
    Nat → CopyState → List (List UInt8) → Bool × List UInt8
  | _, _, [] => (true, [])
  | i, s, buf :: bufs =>
    match copyLine scan key valueChanged s (ofBuffer buf) with
    | none => (false, [])
    | some (s, out) =>
      if ops.write i = false then (false, [])
      else if ops.memset i = false then (false, out)
      else
        let rest := copyToFile scan ops key valueChanged (i + 1) s bufs
        (rest.1, out ++ rest.2)

/-- `SetValueToCfg` on the content of the configuration file: the content afterwards. The
output is buffered: if `fclose` fails, only its first `flushed` bytes are in the temporary
file. -/
def setValueToCfg (scan : Sscanf) (ops : FileOps) (flushed : Nat) (key : List UInt8)
    (value : Int32) (content : List UInt8) : List UInt8 :=
  if ops.openIn = false then content
  else if ops.openOut = false then content
  else
    let copy := copyToFile scan ops key value 0 .initial (fgetsLines lineMaxChar content)
    if copy.1 = false then content
    else
      let tmp := if ops.close then copy.2 else copy.2.take flushed
      if ops.rename then tmp else content

/-! ### The complete copy -/

/-- What the loop writes when nothing fails. -/
def rewriteLines (scan : Sscanf) (key : List UInt8) (value : Int32) :
    CopyState → List (List UInt8) → List UInt8
  | _, [] => []
  | s, buf :: bufs =>
    match copyLine scan key value s (ofBuffer buf) with
    | none => []
    | some (s, out) => out ++ rewriteLines scan key value s bufs

/-- The complete rewritten content. -/
def rewritten (scan : Sscanf) (key : List UInt8) (value : Int32) (content : List UInt8) :
    List UInt8 :=
  rewriteLines scan key value .initial (fgetsLines lineMaxChar content)

/-- What the loop leaves in the variables after some buffers. -/
def copyState (scan : Sscanf) (key : List UInt8) (value : Int32) (s : CopyState)
    (bufs : List (List UInt8)) : CopyState :=
  bufs.foldl (fun s buf ↦ ((copyLine scan key value s (ofBuffer buf)).map Prod.fst).getD s) s

section Copy

variable {scan : Sscanf} {key : List UInt8} {value : Int32}

/-- `sscanf_s` reports the empty line only. -/
theorem scanLine_ne_none (scan : Sscanf) (s : CopyState) {line : List UInt8} (h : line ≠ []) :
    ∃ s', scanLine scan s line = some s' := by
  unfold scanLine
  rw [if_neg h]
  dsimp only
  split
  · exact ⟨_, rfl⟩
  · split
    · exact ⟨_, rfl⟩
    · split <;> exact ⟨_, rfl⟩

/-- A line that is not taken apart is copied. -/
theorem copyLine_of_not_isRewritten (s : CopyState) {line : List UInt8}
    (h : ¬ IsRewritten key line) : copyLine scan key value s line = some (s, line) :=
  if_neg h

/-- A line that is taken apart is printed again, with the new value if its key is the one
that is set. -/
theorem copyLine_of_isRewritten {s s' : CopyState} {line : List UInt8}
    (h : IsRewritten key line) (hscan : scanLine scan s line = some s') :
    copyLine scan key value s line =
      some (if s'.tmpkey = key then { s' with tmpValue := value } else s',
        printLine (if s'.tmpkey = key then { s' with tmpValue := value } else s')) := by
  unfold copyLine
  rw [if_pos h, hscan]

/-- A line that is not empty is copied somehow, and not to nothing. -/
theorem copyLine_some (scan : Sscanf) (key : List UInt8) (value : Int32) (s : CopyState)
    {line : List UInt8} (h : line ≠ []) :
    ∃ s' out, copyLine scan key value s line = some (s', out) ∧ out ≠ [] := by
  by_cases hrewritten : IsRewritten key line
  · obtain ⟨s', hs'⟩ := scanLine_ne_none scan s h
    refine ⟨_, _, copyLine_of_isRewritten hrewritten hs', ?_⟩
    simp [printLine]
  · exact ⟨s, line, copyLine_of_not_isRewritten s hrewritten, h⟩

/-- An empty line is copied to nothing, or it cannot be parsed because every key is in it. -/
theorem copyLine_nil (s : CopyState) :
    copyLine scan key value s [] = if key = [] then none else some (s, []) := by
  by_cases hkey : key = []
  · rw [if_pos hkey]
    unfold copyLine
    rw [if_pos ⟨by simp, by simp, by simp [hkey]⟩]
    rfl
  · rw [if_neg hkey]
    exact copyLine_of_not_isRewritten s fun h ↦ hkey (List.eq_nil_of_infix_nil h.2.2)

/-- What the copy of some lines needs: writes and clearings that succeed, and no empty line
under an empty key. -/
structure Completes (ops : FileOps) (key : List UInt8) (i : Nat) (bufs : List (List UInt8)) :
    Prop where
  io : ∀ j < bufs.length, ops.write (i + j) = true ∧ ops.memset (i + j) = true
  parsed : ∀ buf ∈ bufs, ofBuffer buf = [] → key ≠ []

/-- The copy goes line by line. -/
theorem completes_cons {ops : FileOps} {i : Nat} {buf : List UInt8} {bufs : List (List UInt8)} :
    Completes ops key i (buf :: bufs) ↔ (ofBuffer buf = [] → key ≠ []) ∧ ops.write i = true ∧
      ops.memset i = true ∧ Completes ops key (i + 1) bufs := by
  constructor
  · intro h
    have hfirst := h.io 0 (by simp)
    refine ⟨h.parsed buf List.mem_cons_self, hfirst.1, hfirst.2, ?_, ?_⟩
    · intro j hj
      have hnext := h.io (j + 1) (by simpa using hj)
      rwa [Nat.add_comm j 1, ← Nat.add_assoc] at hnext
    · exact fun b hb ↦ h.parsed b (List.mem_cons_of_mem buf hb)
  · rintro ⟨hparsed, hwrite, hmemset, hrest⟩
    constructor
    · intro j hj
      cases j with
      | zero => exact ⟨hwrite, hmemset⟩
      | succ j =>
        rw [Nat.add_comm j 1, ← Nat.add_assoc]
        exact hrest.io j (by simpa using hj)
    · intro b hb
      rcases List.mem_cons.mp hb with rfl | hb
      · exact hparsed
      · exact hrest.parsed b hb

/-- The copy returns 0 exactly when nothing fails, and then it has written everything. -/
theorem copyToFile_spec (scan : Sscanf) (key : List UInt8) (value : Int32) (ops : FileOps)
    (i : Nat) (s : CopyState) (bufs : List (List UInt8)) :
    ((copyToFile scan ops key value i s bufs).1 = true ↔ Completes ops key i bufs) ∧
      ((copyToFile scan ops key value i s bufs).1 = true →
        (copyToFile scan ops key value i s bufs).2 = rewriteLines scan key value s bufs) := by
  induction bufs generalizing i s with
  | nil => exact ⟨⟨fun _ ↦ ⟨by simp, by simp⟩, fun _ ↦ rfl⟩, fun _ ↦ rfl⟩
  | cons buf bufs ih =>
    have hcopy : copyLine scan key value s (ofBuffer buf) = none ↔
        ofBuffer buf = [] ∧ key = [] := by
      by_cases hline : ofBuffer buf = []
      · rw [hline, copyLine_nil]
        split <;> simp_all
      · obtain ⟨s', out, hsome, -⟩ := copyLine_some scan key value s hline
        simp [hsome, hline]
    rw [completes_cons]
    unfold copyToFile rewriteLines
    cases hline : copyLine scan key value s (ofBuffer buf) with
    | none =>
      obtain ⟨hempty, hkey⟩ := hcopy.mp hline
      simp [hempty, hkey]
    | some r =>
      obtain ⟨s', out⟩ := r
      have hparsed : ofBuffer buf = [] → key ≠ [] := by
        intro hempty hkey
        rw [hcopy.mpr ⟨hempty, hkey⟩] at hline
        cases hline
      obtain ⟨hfst, hsnd⟩ := ih (i + 1) s'
      dsimp only
      cases ops.write i with
      | false => simp
      | true =>
        cases ops.memset i with
        | false => simp
        | true =>
          rw [if_neg (by decide), if_neg (by decide)]
          refine ⟨⟨fun hdone ↦ ⟨hparsed, rfl, rfl, hfst.mp hdone⟩, fun h ↦ hfst.mpr h.2.2.2⟩, ?_⟩
          intro hdone
          rw [hsnd hdone]

/-- Nothing is written exactly if every line is empty. -/
theorem rewriteLines_eq_nil_iff {ops : FileOps} {i : Nat} {bufs : List (List UInt8)}
    (h : Completes ops key i bufs) (s : CopyState) :
    rewriteLines scan key value s bufs = [] ↔ ∀ buf ∈ bufs, ofBuffer buf = [] := by
  induction bufs generalizing i s with
  | nil => simp [rewriteLines]
  | cons buf bufs ih =>
    obtain ⟨hparsed, -, -, hrest⟩ := completes_cons.mp h
    unfold rewriteLines
    by_cases hline : ofBuffer buf = []
    · rw [hline, copyLine_nil, if_neg (hparsed hline)]
      simp [hline, ih hrest]
    · obtain ⟨s', out, hsome, hout⟩ := copyLine_some scan key value s hline
      rw [hsome]
      simp [hline, hout]

end Copy

/-! ### Failures -/

section Failures

variable (scan : Sscanf) (ops : FileOps) (key : List UInt8) (value : Int32)

/-- Everything up to `fclose` succeeds. -/
def CopyCompletes (content : List UInt8) : Prop :=
  ops.openIn = true ∧ ops.openOut = true ∧
    Completes ops key 0 (fgetsLines lineMaxChar content)

/-- The file afterwards: the old one if an operation before `fclose` or the renaming fails, and
else what is in the temporary file. -/
theorem setValueToCfg_eq (flushed : Nat) (content : List UInt8) :
    (¬ (CopyCompletes ops key content ∧ ops.rename = true) →
      setValueToCfg scan ops flushed key value content = content) ∧
    (CopyCompletes ops key content ∧ ops.rename = true →
      setValueToCfg scan ops flushed key value content =
        if ops.close then rewritten scan key value content
        else (rewritten scan key value content).take flushed) := by
  obtain ⟨hdone, hout⟩ := copyToFile_spec scan key value ops 0 .initial
    (fgetsLines lineMaxChar content)
  unfold CopyCompletes setValueToCfg
  cases hopenIn : ops.openIn with
  | false => simp
  | true =>
    cases hopenOut : ops.openOut with
    | false => simp
    | true =>
      rw [if_neg (by decide), if_neg (by decide)]
      dsimp only
      by_cases hcopy : (copyToFile scan ops key value 0 .initial
          (fgetsLines lineMaxChar content)).1 = true
      · rw [if_neg (by simp [hcopy]), hout hcopy]
        have hcompletes := hdone.mp hcopy
        constructor
        · intro hfail
          rw [if_neg fun hrename ↦ hfail ⟨⟨rfl, rfl, hcompletes⟩, hrename⟩]
        · intro h
          rw [if_pos h.2]
          rfl
      · rw [if_pos (by simpa using hcopy)]
        exact ⟨fun _ ↦ rfl, fun h ↦ absurd (hdone.mpr h.1.2.2) hcopy⟩

/-- With every operation succeeding the file is the rewritten one, if every line can be
parsed. -/
theorem setValueToCfg_ok {key content : List UInt8}
    (hparsed : ∀ buf ∈ fgetsLines lineMaxChar content, ofBuffer buf = [] → key ≠ [])
    (flushed : Nat) :
    setValueToCfg scan .ok flushed key value content = rewritten scan key value content :=
  (setValueToCfg_eq scan .ok key value flushed content).2
    ⟨⟨rfl, rfl, fun _ _ ↦ ⟨rfl, rfl⟩, hparsed⟩, rfl⟩

/-- When the rewriting is atomic: for every content, key and value and every outcome of the
file operations, the file afterwards is the old one or the complete rewritten one, however much
a failing `fclose` flushed, exactly if `fclose` succeeds, or the renaming or an operation
before `fclose` fails, or there is nothing to write. -/
theorem rewrite_atomic_iff (content : List UInt8) :
    (∀ flushed, setValueToCfg scan ops flushed key value content = content ∨
      setValueToCfg scan ops flushed key value content = rewritten scan key value content) ↔
    ops.close = true ∨ ops.rename = false ∨ ¬ CopyCompletes ops key content ∨
      ∀ buf ∈ fgetsLines lineMaxChar content, ofBuffer buf = [] := by
  have heq := fun flushed ↦ setValueToCfg_eq scan ops key value flushed content
  by_cases hreach : CopyCompletes ops key content ∧ ops.rename = true
  · have hnil : rewritten scan key value content = [] ↔
        ∀ buf ∈ fgetsLines lineMaxChar content, ofBuffer buf = [] :=
      rewriteLines_eq_nil_iff hreach.1.2.2 .initial
    cases hclose : ops.close with
    | true =>
      refine ⟨fun _ ↦ .inl rfl, fun _ flushed ↦ .inr ?_⟩
      rw [(heq flushed).2 hreach, if_pos hclose]
    | false =>
      simp only [Bool.false_eq_true, false_or, hreach.1, hreach.2, not_true_eq_false,
        Bool.true_eq_false]
      rw [← hnil]
      constructor
      · -- With nothing flushed the file is empty.
        intro h
        have hzero := h 0
        rw [(heq 0).2 hreach, hclose, if_neg (by decide), List.take_zero] at hzero
        rcases hzero with hold | hnew
        · rw [← hold]
          rfl
        · exact hnew.symm
      · intro hempty flushed
        right
        rw [(heq flushed).2 hreach, hempty, hclose, if_neg (by decide), List.take_nil]
  · have hold : ops.rename = false ∨ ¬ CopyCompletes ops key content := by
      by_cases hcopy : CopyCompletes ops key content
      · left
        cases hrename : ops.rename with
        | false => rfl
        | true => exact absurd ⟨hcopy, hrename⟩ hreach
      · exact .inr hcopy
    refine ⟨fun _ ↦ ?_, fun _ flushed ↦ .inl ((heq flushed).1 hreach)⟩
    rcases hold with hrename | hcopy
    · exact .inr (.inl hrename)
    · exact .inr (.inr (.inl hcopy))

end Failures

/-- `sscanf_s` that leaves what it did not match and stores 0 for what does not fit. -/
def plainSscanf : Sscanf := ⟨id, fun _ ↦ 0, fun _ ↦ .inl rfl⟩

/-- A full disk that shows when the output is flushed by `fclose`. -/
def diskFull : FileOps := { FileOps.ok with close := false }

/-- The temporary file that could not be written out replaces the configuration file. -/
theorem full_disk_truncates :
    ¬ ∀ (scan : Sscanf) (ops : FileOps) (flushed : Nat) (key : List UInt8) (value : Int32)
      (content : List UInt8), setValueToCfg scan ops flushed key value content = content ∨
      setValueToCfg scan ops flushed key value content = rewritten scan key value content := by
  intro h
  have hfull := h plainSscanf diskFull 0 (bytes "balloon_enable") 1 (bytes "balloon_enable=0\n")
  revert hfull
  decide +kernel

end Memlink
