import Memlink.Base.LineInput
import Memlink.Base.StringScan
import Memlink.Config.Lookup
import Mathlib.Data.List.DropRight

/-!
# The scanners of a setting's value

`TrimNewLine` and `CheckAllDigits` (`memlink_driver.c:310–343`) as they run in the line buffer,
with checked reads: the first writes from the right with a pointer that may start before the
string, the second reads from the left. They compute `trimNewLine` and `checkAllDigits`. What
the check accepts is what `strtol` reads to its end, so a lookup (`memlink_driver.c:345–400`)
never leaves through its check of the ending.
-/

namespace Memlink

open CString

/-- The loop of `TrimNewLine`. The pointers are offsets into the memory. -/
def trimLoop (string : Int) (mem : List UInt8) (last : Int) : Option (List UInt8) :=
  if last > string then
    match mem[last.toNat]? with
    | none => none
    | some c =>
      if isTrimmed c then trimLoop string (mem.set last.toNat 0) (last - 1) else some mem
  else some mem
termination_by (last - string).toNat

/-- `TrimNewLine` on the string at an offset. -/
def trimNewLineAt (mem : List UInt8) (string : Nat) : Option (List UInt8) :=
  match strlen (mem.drop string) with
  | none => none
  | some len => trimLoop string mem (string + len - 1)

/-- The last loop of `CheckAllDigits`. -/
def allDigitsAt : List UInt8 → Option Bool
  | [] => none
  | c :: mem => if c = 0 then some true else if isDigit c then allDigitsAt mem else some false

/-- `CheckAllDigits` on the memory at `string`. -/
def checkAllDigitsAt (mem : List UInt8) : Option Bool :=
  match skipSep ' '.toUInt8 mem with
  | none => none
  | some [] => none
  | some (c :: mem) =>
    if c = 0 then some false
    else if c = '-'.toUInt8 then
      match mem with
      | [] => none
      | d :: mem =>
        if d < '0'.toUInt8 ∨ d > '9'.toUInt8 then some false else allDigitsAt (d :: mem)
    else allDigitsAt (c :: mem)

/-! ### Trimming -/

/-- The loop clears the blanks at the end of a string, from its last character on, and stops at
the first character at the latest. -/
theorem trimLoop_eq (pre : List UInt8) (c : UInt8) (s rest : List UInt8) :
    trimLoop pre.length (pre ++ c :: s ++ rest) (pre.length + s.length) =
      some (pre ++ c :: s.rdropWhile isTrimmed ++
        (List.replicate (s.rtakeWhile isTrimmed).length 0 ++ rest)) := by
  -- The induction takes the characters from the right; what the loop has cleared is in `rest`.
  induction s using List.reverseRecOn generalizing rest with
  | nil =>
    rw [trimLoop]
    simp
  | append_singleton s d ih =>
    have hmem : pre ++ c :: (s ++ [d]) ++ rest = pre ++ c :: s ++ d :: rest := by simp
    have hlast : ((pre.length : Int) + (s ++ [d]).length).toNat = (pre ++ c :: s).length := by
      simp only [List.length_append, List.length_cons, List.length_nil]
      omega
    have hrun : (pre.length : Int) + (s ++ [d]).length > pre.length := by
      rw [List.length_append, List.length_singleton]
      omega
    have hget : (pre ++ c :: s ++ d :: rest)[(pre ++ c :: s).length]? = some d := by
      rw [List.getElem?_append_right (Nat.le_refl _), Nat.sub_self, List.getElem?_cons_zero]
    rw [trimLoop, if_pos hrun, hlast, hmem, hget]
    dsimp only
    by_cases hd : isTrimmed d = true
    · have hset : (pre ++ c :: s ++ d :: rest).set (pre ++ c :: s).length 0 =
          pre ++ c :: s ++ 0 :: rest := by
        rw [List.set_append_right _ _ (Nat.le_refl _), Nat.sub_self, List.set_cons_zero]
      have hnext : (pre.length : Int) + (s ++ [d]).length - 1 = pre.length + s.length := by
        rw [List.length_append, List.length_singleton]
        omega
      rw [if_pos hd, hset, hnext, ih, List.rdropWhile_concat_pos _ _ _ hd,
        List.rtakeWhile_concat_pos _ _ _ hd, List.length_append, List.length_singleton,
        List.replicate_succ', List.append_assoc (List.replicate _ _), List.singleton_append]
    · rw [if_neg hd, List.rdropWhile_concat_neg _ _ _ hd, List.rtakeWhile_concat_neg _ _ _ hd]
      simp

/-- `TrimNewLine` in memory: the string becomes the trimmed one, NULs take the place of what it
loses, and everything else stays. -/
theorem trimNewLineAt_eq (pre : List UInt8) {p : List UInt8} (hnul : 0 ∉ p) (rest : List UInt8) :
    trimNewLineAt (pre ++ p ++ 0 :: rest) pre.length =
      some (pre ++ trimNewLine p ++
        0 :: (List.replicate (p.length - (trimNewLine p).length) 0 ++ rest)) := by
  have hzeros : ∀ n, List.replicate n (0 : UInt8) ++ 0 :: rest =
      0 :: (List.replicate n 0 ++ rest) := by
    intro n
    rw [← List.cons_append, ← List.replicate_succ, List.replicate_succ', List.append_assoc,
      List.singleton_append]
  have hdrop : (pre ++ p ++ 0 :: rest).drop pre.length = p ++ 0 :: rest := by simp
  unfold trimNewLineAt
  rw [hdrop, strlen_append hnul]
  dsimp only
  cases p with
  | nil =>
    -- The pointer starts before the string.
    rw [trimLoop, if_neg (by rw [List.length_nil]; omega)]
    simp [trimNewLine]
  | cons c s =>
    have hlast : (pre.length : Int) + (c :: s).length - 1 = pre.length + s.length := by
      rw [List.length_cons]
      omega
    have hlen : (c :: s).length - (trimNewLine (c :: s)).length =
        (s.rtakeWhile isTrimmed).length := by
      have hsum := congrArg List.length
        (List.rdropWhile_append_rtakeWhile (p := isTrimmed) (l := s))
      rw [List.length_append] at hsum
      change s.length + 1 - ((s.rdropWhile isTrimmed).length + 1) = _
      omega
    rw [hlast, trimLoop_eq, hlen, hzeros]
    rfl

/-- `t` is `p` without its longest end of spaces, newlines and carriage returns that leaves the
first character. -/
structure TrimsTo (p t : List UInt8) : Prop where
  removed : ∃ blanks, p = t ++ blanks ∧ (∀ c ∈ blanks, isTrimmed c = true) ∧
    ∀ suffix, suffix <:+ p → suffix.length < p.length → (∀ c ∈ suffix, isTrimmed c = true) →
      suffix <:+ blanks
  first : t.head? = p.head?

private theorem suffix_rtakeWhile {f : UInt8 → Bool} {s suffix : List UInt8} (h : suffix <:+ s)
    (hall : ∀ c ∈ suffix, f c = true) : suffix <:+ s.rtakeWhile f := by
  induction s using List.reverseRecOn generalizing suffix with
  | nil => exact h
  | append_singleton s d ih =>
    rcases List.suffix_concat_iff.mp h with rfl | ⟨t, rfl, ht⟩
    · exact List.nil_suffix
    · have hd : f d = true := hall d (by simp)
      rw [List.rtakeWhile_concat_pos _ _ _ hd]
      have hsuf := ih ht fun c hc ↦ hall c (List.mem_append_left _ hc)
      obtain ⟨before, hbefore⟩ := hsuf
      exact ⟨before, by rw [← hbefore, List.append_assoc]⟩

/-- `TrimNewLine` removes the longest end of blanks that leaves the first character. -/
theorem trimsTo_trimNewLine (p : List UInt8) : TrimsTo p (trimNewLine p) := by
  cases p with
  | nil => exact ⟨⟨[], rfl, by simp, fun suffix _ hlt _ ↦ absurd hlt (Nat.not_lt_zero _)⟩, rfl⟩
  | cons c s =>
    refine ⟨⟨s.rtakeWhile isTrimmed, ?_, fun d hd ↦ List.mem_rtakeWhile_imp hd, ?_⟩, rfl⟩
    · change c :: s = c :: (s.rdropWhile isTrimmed ++ s.rtakeWhile isTrimmed)
      rw [List.rdropWhile_append_rtakeWhile]
    · intro suffix hsuf hlt hall
      rcases List.suffix_cons_iff.mp hsuf with rfl | hsuf
      · exact absurd hlt (Nat.lt_irrefl _)
      · exact suffix_rtakeWhile hsuf hall

/-- A trimmed string is a string. -/
theorem zero_notMem_trimNewLine {p : List UInt8} (hnul : 0 ∉ p) : 0 ∉ trimNewLine p := by
  obtain ⟨blanks, hblanks, -⟩ := (trimsTo_trimNewLine p).removed
  rw [hblanks] at hnul
  exact fun hmem ↦ hnul (List.mem_append_left _ hmem)

/-! ### Digits -/

/-- The digits are read up to the NUL. -/
theorem allDigitsAt_eq {s : List UInt8} (hnul : 0 ∉ s) (rest : List UInt8) :
    allDigitsAt (s ++ 0 :: rest) = some (s.all isDigit) := by
  induction s with
  | nil => rfl
  | cons c s ih =>
    have hc : c ≠ 0 := (List.ne_of_not_mem_cons hnul).symm
    rw [List.cons_append, allDigitsAt, if_neg hc, ih (List.not_mem_of_not_mem_cons hnul),
      List.all_cons]
    cases isDigit c with
    | true => rfl
    | false => rfl

/-- `CheckAllDigits` reads a string and no more of the memory than its NUL. -/
theorem checkAllDigitsAt_eq {s : List UInt8} (hnul : 0 ∉ s) (rest : List UInt8) :
    checkAllDigitsAt (s ++ 0 :: rest) = some (checkAllDigits s) := by
  have hbody : 0 ∉ s.dropWhile (· = ' '.toUInt8) := fun hmem ↦
    hnul ((List.dropWhile_sublist _).subset hmem)
  unfold checkAllDigitsAt checkAllDigits
  rw [skipSep_append hnul rest (by decide)]
  generalize s.dropWhile (· = ' '.toUInt8) = body at hbody ⊢
  cases body with
  | nil => rfl
  | cons c body =>
    have hc : c ≠ 0 := (List.ne_of_not_mem_cons hbody).symm
    have hall := allDigitsAt_eq hbody rest
    rw [List.cons_append] at hall ⊢
    dsimp only
    rw [if_neg hc, hall]
    by_cases hminus : c = '-'.toUInt8
    · rw [if_pos hminus, if_pos hminus]
      cases body with
      | nil => rfl
      | cons d body =>
        have hdigits := allDigitsAt_eq (List.not_mem_of_not_mem_cons hbody) rest
        rw [List.cons_append] at hdigits ⊢
        dsimp only
        rw [hdigits]
        by_cases hd : isDigit d = true
        · have hrange : ¬ (d < '0'.toUInt8 ∨ d > '9'.toUInt8) := by
            simp only [isDigit, Bool.and_eq_true, decide_eq_true_eq] at hd
            simp only [gt_iff_lt, not_or, UInt8.not_lt]
            exact hd
          rw [if_neg hrange, hd, Bool.true_and]
        · have hrange : d < '0'.toUInt8 ∨ d > '9'.toUInt8 := by
            simp only [isDigit, Bool.and_eq_true, decide_eq_true_eq, not_and_or,
              UInt8.not_le] at hd
            exact hd
          rw [if_pos hrange, Bool.eq_false_iff.mpr hd, Bool.false_and]
    · rw [if_neg hminus, if_neg hminus]

/-- What `CheckAllDigits` accepts, `strtol` reads to its end. -/
theorem strtol_rest_of_checkAllDigits {s : List UInt8} (h : checkAllDigits s = true) :
    (strtol s).rest = [] := by
  obtain ⟨negative, digits, hsign, hspace, hne, hall⟩ := checkAllDigits_cases h
  rw [strtol_eq (by rw [hspace, hsign]) hne hall, (clampLong_eq _ _).1]

/-! ### How a lookup ends -/

/-- The exits of `GetIntegerValueFromCfg`. -/
inductive LookupExit where
  | notOpened
  | invalidEnding
  | outOfRange
  | outOfIntRange
  | memsetFailed
  | missing
  | value (n : Int32)
  deriving DecidableEq, Repr

/-- The `int` that an exit returns. -/
def LookupExit.code : LookupExit → Int32
  | .value n => n
  | .missing => -1
  | _ => cfgopenOrMemsetError

/-- The number branch, `memlink_driver.c:368–386`. -/
def integerExit (p : List UInt8) (errno : Bool) : LookupExit × Bool :=
  let r := strtol p
  let value : Int32 := r.value.toInt32
  let errno := errno || r.overflow
  if r.rest ≠ [] then (.invalidEnding, errno)
  else if errno then (.outOfRange, errno)
  else if value < Int32.minValue ∨ value > Int32.maxValue then (.outOfIntRange, errno)
  else (.value value, errno)

/-- `strstr(line, "=") + 1`, as an offset. -/
def afterEqualsAt : List UInt8 → Option (Option Nat)
  | [] => none
  | c :: mem =>
    if c = 0 then some none
    else if c = '='.toUInt8 then some (some 1)
    else (afterEqualsAt mem).map (Option.map (· + 1))

/-- The loop body in the memory of `line`: an exit, or none if the loop goes on. -/
def lineExit (key line : List UInt8) (errno : Bool) : Option (Option (LookupExit × Bool)) := do
  if ← startsWith key line then
    match ← afterEqualsAt line with
    | some p =>
      let line ← trimNewLineAt line p
      if ← checkAllDigitsAt (line.drop p) then
        return some (integerExit (ofBuffer (line.drop p)) errno)
      else return none
    | none => return none
  else return none

/-- The memory of `line` after `fgets`: it was cleared before. -/
def lineMemory (buf : List UInt8) : List UInt8 :=
  buf ++ List.replicate (lineMaxChar - buf.length) 0

/-- The loop over the buffers that `fgets` fills. -/
def scanExit (memset : Bool) (key : List UInt8) :
    List (List UInt8) → Bool → Option (LookupExit × Bool)
  | [], errno => some (.missing, errno)
  | buf :: bufs, errno => do
    match ← lineExit key (lineMemory buf) errno with
    | some exit => return exit
    | none => if memset then scanExit memset key bufs errno else return (.memsetFailed, errno)

/-- `GetIntegerValueFromCfg` with checked reads: its exit and `errno` afterwards. -/
def lookupExit (env : CfgEnv) (key : List UInt8) (errno : Bool) : Option (LookupExit × Bool) :=
  match env.file with
  | none => some (.notOpened, false)
  | some content => scanExit env.memset key (fgetsLines lineMaxChar content) errno

/-- The exit of a lookup agrees with a result, and is not a check that cannot fail. -/
structure LookupExit.Agrees (exit : LookupExit × Bool) (result : Int32 × Bool) : Prop where
  code : (exit.1.code, exit.2) = result
  ending : exit.1 ≠ .invalidEnding
  intRange : exit.1 ≠ .outOfIntRange

/-- On accepted text only `ERANGE` stops the number branch. -/
theorem integerExit_agrees {s : List UInt8} (h : checkAllDigits s = true) (errno : Bool) :
    LookupExit.Agrees (integerExit s errno) (integerValue s errno) := by
  have hend : ¬ (strtol s).rest ≠ [] := not_not.mpr (strtol_rest_of_checkAllDigits h)
  unfold integerExit integerValue
  dsimp only
  rw [if_neg hend, if_neg hend, if_neg (not_outside_int _), if_neg (not_outside_int _)]
  split
  · exact ⟨rfl, by simp, by simp⟩
  · exact ⟨rfl, by simp, by simp⟩

/-- The search for `'='` in a string. -/
theorem afterEqualsAt_cases {text : List UInt8} (hnul : 0 ∉ text) (rest : List UInt8) :
    (afterEqualsAt (text ++ 0 :: rest) = some none ∧ afterEquals text = none) ∨
      ∃ before p, text = before ++ p ∧ afterEquals text = some p ∧
        afterEqualsAt (text ++ 0 :: rest) = some (some before.length) := by
  induction text with
  | nil => exact .inl ⟨rfl, rfl⟩
  | cons c text ih =>
    have hc : c ≠ 0 := (List.ne_of_not_mem_cons hnul).symm
    rw [List.cons_append, afterEqualsAt, if_neg hc]
    unfold afterEquals
    by_cases heq : c = '='.toUInt8
    · rw [if_pos heq, List.dropWhile_cons_of_neg (by simpa using heq)]
      exact .inr ⟨[c], text, rfl, rfl, rfl⟩
    · rw [if_neg heq, List.dropWhile_cons_of_pos (by simpa using heq)]
      rcases ih (List.not_mem_of_not_mem_cons hnul) with ⟨hat, hnone⟩ | ⟨before, p, htext, hp, hat⟩
      · rw [hat]
        exact .inl ⟨rfl, hnone⟩
      · rw [hat]
        exact .inr ⟨c :: before, p, by rw [htext]; rfl, hp, rfl⟩

/-- The loop body reads the line buffer within bounds, and reaches the number branch with an
accepted text only. -/
theorem lineExit_eq {key : List UInt8} (hkey : 0 ∉ key) {text : List UInt8} (hnul : 0 ∉ text)
    (rest : List UInt8) (errno : Bool) :
    lineExit key (text ++ 0 :: rest) errno =
      some ((acceptedText key text).map (integerExit · errno)) := by
  unfold lineExit acceptedText
  rw [startsWith_append hnul rest hkey]
  by_cases hstart : key <+: text
  · have hpre : key.isPrefixOf text = true := List.isPrefixOf_iff_prefix.mpr hstart
    rcases afterEqualsAt_cases hnul rest with ⟨hat, hnone⟩ | ⟨before, p, rfl, hp, hat⟩
    · rw [hat, hnone]
      simp [hstart]
    · have hpnul : 0 ∉ p := fun hmem ↦ hnul (List.mem_append_right _ hmem)
      have htrim := zero_notMem_trimNewLine hpnul
      have hdrop : ∀ more, (before ++ trimNewLine p ++ 0 :: more).drop before.length =
          trimNewLine p ++ 0 :: more := by
        intro more
        rw [List.append_assoc, List.drop_left]
      rw [hat, hp]
      simp only [hstart, hpre, decide_true, if_true, Option.bind_eq_bind, Option.bind_some,
        trimNewLineAt_eq before hpnul rest, hdrop, checkAllDigitsAt_eq htrim,
        ofBuffer_append_cons htrim]
      by_cases hdigits : checkAllDigits (trimNewLine p) = true
      · simp [hdigits]
      · simp [hdigits]
  · have hpre : ¬ key.isPrefixOf text = true := fun h ↦ hstart (List.isPrefixOf_iff_prefix.mp h)
    simp [hstart, hpre]

/-- The loop with checked reads runs as the one without memory does. -/
theorem scanExit_agrees {key : List UInt8} (hkey : 0 ∉ key) (memset : Bool)
    {bufs : List (List UInt8)} (hbufs : ∀ buf ∈ bufs, buf.length < lineMaxChar) (errno : Bool) :
    ∃ exit, scanExit memset key bufs errno = some exit ∧
      LookupExit.Agrees exit (scanLines memset key bufs errno) := by
  induction bufs with
  | nil => exact ⟨_, rfl, rfl, by simp, by simp⟩
  | cons buf bufs ih =>
    have hlen := hbufs buf List.mem_cons_self
    obtain ⟨exit, hexit, hagrees⟩ := ih fun b hb ↦ hbufs b (List.mem_cons_of_mem buf hb)
    obtain ⟨after, hmemory⟩ : ∃ after, lineMemory buf = ofBuffer buf ++ 0 :: after := by
      obtain ⟨n, hn⟩ : ∃ n, lineMaxChar - buf.length = n + 1 :=
        ⟨lineMaxChar - buf.length - 1, by omega⟩
      unfold lineMemory
      rw [hn, List.replicate_succ]
      exact exists_ofBuffer_append buf _
    rw [scanExit, hmemory, lineExit_eq hkey (zero_notMem_ofBuffer buf), scanLines_cons_acceptedText]
    cases htext : acceptedText key (ofBuffer buf) with
    | some p =>
      exact ⟨_, rfl, integerExit_agrees (checkAllDigits_of_acceptedText htext) errno⟩
    | none =>
      cases memset with
      | false => exact ⟨_, rfl, rfl, by simp, by simp⟩
      | true => exact ⟨exit, hexit, hagrees⟩

/-- A lookup with checked reads stays within its memory and returns what the lookup without
memory returns. -/
theorem lookupExit_agrees (env : CfgEnv) {key : List UInt8} (hkey : 0 ∉ key) (errno : Bool) :
    ∃ exit, lookupExit env key errno = some exit ∧
      LookupExit.Agrees exit (getIntegerValueFromCfg env key errno) := by
  unfold lookupExit getIntegerValueFromCfg
  cases env.file with
  | none => exact ⟨_, rfl, rfl, by simp, by simp⟩
  | some content =>
    apply scanExit_agrees hkey
    intro buf hbuf
    obtain ⟨_, hfills⟩ := exists_fills_of_mem (by decide) hbuf
    exact Nat.lt_of_le_of_lt hfills.length_le (by decide)

/-- The three scanners agree. For every string in memory, `TrimNewLine` removes exactly the
longest end of spaces, newlines and carriage returns that leaves the first character, and
touches nothing else; `CheckAllDigits` accepts what is left exactly when it is spaces, an
optional `'-'` and digits; and then `strtol` reads it to its end. So no lookup, in any file and
for any key, ends at the check of the ending. -/
theorem scanners_agree (pre p rest : List UInt8) (hnul : 0 ∉ p) (env : CfgEnv)
    (key : List UInt8) (hkey : 0 ∉ key) (errno : Bool) :
    (∃ t more, more = List.replicate (p.length - t.length) 0 ++ rest ∧
      trimNewLineAt (pre ++ p ++ 0 :: rest) pre.length = some (pre ++ t ++ 0 :: more) ∧
      TrimsTo p t ∧
      ∃ accepted, checkAllDigitsAt (t ++ 0 :: more) = some accepted ∧
        (accepted = true ↔ IntegerForm t) ∧ (accepted = true → (strtol t).rest = [])) ∧
    ∃ exit, lookupExit env key errno = some exit ∧ exit.1 ≠ .invalidEnding ∧
      (exit.1.code, exit.2) = getIntegerValueFromCfg env key errno := by
  constructor
  · refine ⟨trimNewLine p, _, rfl, trimNewLineAt_eq pre hnul rest, trimsTo_trimNewLine p,
      checkAllDigits (trimNewLine p), checkAllDigitsAt_eq (zero_notMem_trimNewLine hnul) _,
      checkAllDigits_iff _, strtol_rest_of_checkAllDigits⟩
  · obtain ⟨exit, hexit, hagrees⟩ := lookupExit_agrees env hkey errno
    exact ⟨exit, hexit, hagrees.ending, hagrees.code⟩

/-- A negative number between spaces: a lookup of it ends elsewhere. -/
theorem scanners_agree_minus_five :
    ∃ exit, lookupExit ⟨some (bytes "balloon_enable= -5 \n"), true, true⟩
      (bytes "balloon_enable") false = some exit ∧ exit.1 ≠ .invalidEnding := by
  obtain ⟨-, exit, hexit, hending, -⟩ := scanners_agree (bytes "balloon_enable=")
    (bytes " -5 \n") [] (by decide +kernel) ⟨some (bytes "balloon_enable= -5 \n"), true, true⟩
    (bytes "balloon_enable") (by decide +kernel) false
  exact ⟨exit, hexit, hending⟩

end Memlink
