import Memlink.Base.CString

/-!
# Looking up a setting

`GetIntegerValueFromCfg` (`memlink_driver.c:345–400`) and its helpers `TrimNewLine` and
`CheckAllDigits` (`memlink_driver.c:310–343`). A lookup reads the whole file again. `errno` is
state of the thread: of the calls made here only `strtol` sets it to `ERANGE`, and nothing
resets it, so the model carries whether it is `ERANGE`. A file that cannot be opened leaves
the code of `fopen` there.
-/

namespace Memlink

open CString

/-- `LINE_MAX_CHAR`. -/
def lineMaxChar : Nat := 1024

/-- `CFGOPEN_OR_MEMSET_ERROR`. -/
def cfgopenOrMemsetError : Int32 := -2

/-- The characters that `TrimNewLine` removes. -/
def isTrimmed (c : UInt8) : Bool := c = ' '.toUInt8 || c = '\n'.toUInt8 || c = '\r'.toUInt8

/-- `TrimNewLine`. The loop stops at the first character, which is never removed. -/
def trimNewLine : List UInt8 → List UInt8
  | [] => []
  | c :: s => c :: (s.reverse.dropWhile isTrimmed).reverse

/-- `CheckAllDigits`. -/
def checkAllDigits (s : List UInt8) : Bool :=
  match s.dropWhile (· = ' '.toUInt8) with
  | [] => false
  | c :: s =>
    if c = '-'.toUInt8 then
      match s with
      | [] => false
      | d :: s => isDigit d && (d :: s).all isDigit
    else (c :: s).all isDigit

/-- `strstr(line, "=") + 1`, if there is a `'='`. -/
def afterEquals (line : List UInt8) : Option (List UInt8) :=
  match line.dropWhile (· ≠ '='.toUInt8) with
  | [] => none
  | _ :: p => some p

/-- The environment of the lookups: the content of `MEMLINKD_CONF_FILE` if it can be opened,
and the success of `calloc` and `memset_s`. -/
structure CfgEnv where
  file : Option (List UInt8)
  calloc : Bool
  memset : Bool

/-- The number branch of the loop body: `strtol`, its conversion to `int` and the three
checks. -/
def integerValue (p : List UInt8) (errno : Bool) : Int32 × Bool :=
  let r := strtol p
  let value : Int32 := r.value.toInt32
  let errno := errno || r.overflow
  if r.rest ≠ [] then (cfgopenOrMemsetError, errno)
  else if errno then (cfgopenOrMemsetError, errno)
  else if value < Int32.minValue ∨ value > Int32.maxValue then (cfgopenOrMemsetError, errno)
  else (value, errno)

/-- The loop of `GetIntegerValueFromCfg` over the buffers that `fgets` fills. -/
def scanLines (memset : Bool) (key : List UInt8) : List (List UInt8) → Bool → Int32 × Bool
  | [], errno => (-1, errno)
  | buf :: bufs, errno =>
    let line := ofBuffer buf
    let next := if memset then scanLines memset key bufs errno else (cfgopenOrMemsetError, errno)
    if key.isPrefixOf line then
      match afterEquals line with
      | some p =>
        if checkAllDigits (trimNewLine p) then integerValue (trimNewLine p) errno else next
      | none => next
    else next

/-- `GetIntegerValueFromCfg`: the value and `errno` afterwards. -/
def getIntegerValueFromCfg (env : CfgEnv) (key : List UInt8) (errno : Bool) : Int32 × Bool :=
  match env.file with
  | none => (cfgopenOrMemsetError, false)
  | some content => scanLines env.memset key (fgetsLines lineMaxChar content) errno

/-! ### The number of a line -/

/-- The integer that a text accepted by `CheckAllDigits` stands for. -/
def textValue (s : List UInt8) : Int :=
  let (negative, digits) := sign (s.dropWhile (· = ' '.toUInt8))
  if negative then -decimal digits else decimal digits

/-- The number after the first `'='` of a line, if there is a well-formed one. -/
def lineNumber (line : List UInt8) : Option Int :=
  match afterEquals line with
  | some p => if checkAllDigits (trimNewLine p) then some (textValue (trimNewLine p)) else none
  | none => none

/-- The number text of a line whose key begins as asked for, trimmed and accepted. -/
def acceptedText (key line : List UInt8) : Option (List UInt8) :=
  if key.isPrefixOf line then
    (afterEquals line).bind fun p ↦
      if checkAllDigits (trimNewLine p) then some (trimNewLine p) else none
  else none

/-- The number that a buffer supplies for a key. -/
def supplied (key buf : List UInt8) : Option Int :=
  if key.isPrefixOf (ofBuffer buf) then lineNumber (ofBuffer buf) else none

/-- The number at which a lookup stops: that of the first buffer that supplies one. -/
def firstNumber (key content : List UInt8) : Option Int :=
  (fgetsLines lineMaxChar content).findSome? (supplied key)

/-- Spaces, an optional `'-'` and at least one digit. -/
def IntegerForm (s : List UInt8) : Prop :=
  ∃ spaces minus digits, s = spaces ++ minus ++ digits ∧ (∀ c ∈ spaces, c = ' '.toUInt8) ∧
    (minus = [] ∨ minus = ['-'.toUInt8]) ∧ digits ≠ [] ∧ ∀ c ∈ digits, isDigit c = true

/-- The spaces of an integer end at its sign or its first digit, for every notion of space that
tells these apart. -/
theorem dropWhile_integer {f : UInt8 → Bool} (hspace : f ' '.toUInt8 = true)
    (hdash : f '-'.toUInt8 = false) (hdigit : ∀ c, isDigit c = true → f c = false)
    {spaces minus digits : List UInt8} (hspaces : ∀ c ∈ spaces, c = ' '.toUInt8)
    (hminus : minus = [] ∨ minus = ['-'.toUInt8]) (hne : digits ≠ [])
    (hall : ∀ c ∈ digits, isDigit c = true) :
    (spaces ++ minus ++ digits).dropWhile f = minus ++ digits := by
  rw [List.append_assoc, List.dropWhile_append_of_pos fun c hc ↦ by rw [hspaces c hc, hspace]]
  rcases hminus with rfl | rfl
  · obtain ⟨d, digits, rfl⟩ := List.exists_cons_of_ne_nil hne
    have hd := hdigit d (hall d List.mem_cons_self)
    rw [List.nil_append, List.dropWhile_cons_of_neg (by simp [hd])]
  · rw [List.singleton_append, List.dropWhile_cons_of_neg (by simp [hdash])]

private theorem ne_space_of_isDigit {c : UInt8} (h : isDigit c = true) :
    decide (c = ' '.toUInt8) = false := by
  apply decide_eq_false
  rintro rfl
  exact absurd h (by decide)

/-- `CheckAllDigits` accepts exactly the integers. -/
theorem checkAllDigits_iff (s : List UInt8) : checkAllDigits s = true ↔ IntegerForm s := by
  constructor
  · intro h
    have hs := List.takeWhile_append_dropWhile (p := (· = ' '.toUInt8)) (l := s)
    have hspaces : ∀ c ∈ s.takeWhile (· = ' '.toUInt8), c = ' '.toUInt8 := fun c hc ↦ by
      simpa using List.mem_takeWhile_imp hc
    unfold checkAllDigits at h
    generalize s.dropWhile (· = ' '.toUInt8) = body at h hs
    generalize s.takeWhile (· = ' '.toUInt8) = spaces at hs hspaces
    cases body with
    | nil => cases h
    | cons c body =>
      dsimp only at h
      split at h
      · next hc =>
        cases body with
        | nil => cases h
        | cons d body =>
          have hall := List.all_eq_true.mp (Bool.and_eq_true_iff.mp h).2
          exact ⟨spaces, ['-'.toUInt8], d :: body, by simp [← hs, hc], hspaces, .inr rfl,
            List.cons_ne_nil _ _, hall⟩
      · exact ⟨spaces, [], c :: body, by simp [← hs], hspaces, .inl rfl, List.cons_ne_nil _ _,
          List.all_eq_true.mp h⟩
  · rintro ⟨spaces, minus, digits, rfl, hspaces, hminus, hne, hall⟩
    have hdrop := dropWhile_integer (f := (· = ' '.toUInt8)) (by decide) (by decide)
      (fun _ ↦ ne_space_of_isDigit) hspaces hminus hne hall
    have hdigits := List.all_eq_true.mpr hall
    obtain ⟨d, digits, rfl⟩ := List.exists_cons_of_ne_nil hne
    have hd := hall d List.mem_cons_self
    unfold checkAllDigits
    rw [hdrop]
    rcases hminus with rfl | rfl
    · have hdash : d ≠ '-'.toUInt8 := fun he ↦ absurd (he ▸ hd) (by decide)
      rw [List.nil_append]
      dsimp only
      rw [if_neg hdash, hdigits]
    · rw [List.singleton_append]
      dsimp only
      rw [if_pos rfl, hd, hdigits]
      rfl

/-- What is left of an accepted text after its spaces is a sign and digits, for `strtol` as
well. -/
theorem checkAllDigits_cases {s : List UInt8} (h : checkAllDigits s = true) :
    ∃ negative digits, sign (s.dropWhile (· = ' '.toUInt8)) = (negative, digits) ∧
      s.dropWhile isSpace = s.dropWhile (· = ' '.toUInt8) ∧
      digits ≠ [] ∧ ∀ c ∈ digits, isDigit c = true := by
  obtain ⟨spaces, minus, digits, rfl, hspaces, hminus, hne, hall⟩ := (checkAllDigits_iff s).mp h
  have hblank := dropWhile_integer (f := (· = ' '.toUInt8)) (by decide) (by decide)
    (fun _ ↦ ne_space_of_isDigit) hspaces hminus hne hall
  have hspace := dropWhile_integer (f := isSpace) (by decide) (by decide)
    (fun _ ↦ isSpace_of_isDigit) hspaces hminus hne hall
  rw [hblank, hspace]
  rcases hminus with rfl | rfl
  · obtain ⟨d, digits, rfl⟩ := List.exists_cons_of_ne_nil hne
    have hd := hall d List.mem_cons_self
    have hdash : d ≠ '-'.toUInt8 := fun he ↦ absurd (he ▸ hd) (by decide)
    have hplus : d ≠ '+'.toUInt8 := fun he ↦ absurd (he ▸ hd) (by decide)
    exact ⟨false, d :: digits, by simp [sign, hdash, hplus], rfl, hne, hall⟩
  · exact ⟨true, digits, by simp [sign], rfl, hne, hall⟩

/-- On accepted text the number branch delivers the integer, narrowed, or the error code. -/
theorem integerValue_eq {s : List UInt8} (h : checkAllDigits s = true) (errno : Bool) :
    integerValue s errno = narrowLong cfgopenOrMemsetError (textValue s) errno := by
  obtain ⟨negative, digits, hsign, hspace, hne, hall⟩ := checkAllDigits_cases h
  have hval : textValue s = if negative then -(decimal digits : Int) else decimal digits := by
    unfold textValue
    rw [hsign]
  rw [hval]
  exact checkedLong_eq (by rw [hspace, hsign]) hne hall cfgopenOrMemsetError errno

/-- An accepted text passes the check. -/
theorem checkAllDigits_of_acceptedText {key line p : List UInt8}
    (h : acceptedText key line = some p) : checkAllDigits p = true := by
  unfold acceptedText at h
  split at h
  · obtain ⟨text, -, htext⟩ := Option.bind_eq_some_iff.mp h
    split at htext
    · next hdigits =>
      obtain rfl := Option.some.inj htext
      exact hdigits
    · cases htext
  · cases h

/-- The number that a buffer supplies is that of its accepted text. -/
theorem supplied_eq (key buf : List UInt8) :
    supplied key buf = (acceptedText key (ofBuffer buf)).map textValue := by
  unfold supplied lineNumber acceptedText
  by_cases hkey : key.isPrefixOf (ofBuffer buf) = true
  · rw [if_pos hkey, if_pos hkey]
    cases afterEquals (ofBuffer buf) with
    | none => rfl
    | some p =>
      dsimp only [Option.bind_some]
      split
      · rfl
      · rfl
  · rw [if_neg hkey, if_neg hkey]
    rfl

/-- One round of the loop: an accepted text ends it, and otherwise the buffer is cleared. -/
theorem scanLines_cons_acceptedText (memset : Bool) (key buf : List UInt8)
    (bufs : List (List UInt8)) (errno : Bool) :
    scanLines memset key (buf :: bufs) errno =
      match acceptedText key (ofBuffer buf) with
      | some p => integerValue p errno
      | none =>
        if memset then scanLines memset key bufs errno else (cfgopenOrMemsetError, errno) := by
  rw [scanLines]
  unfold acceptedText
  by_cases hkey : key.isPrefixOf (ofBuffer buf) = true
  · rw [if_pos hkey, if_pos hkey]
    cases afterEquals (ofBuffer buf) with
    | none => rfl
    | some p =>
      dsimp only [Option.bind_some]
      split
      · rfl
      · rfl
  · rw [if_neg hkey, if_neg hkey]

/-- One round of the loop, in terms of the number supplied. -/
theorem scanLines_cons (memset : Bool) (key buf : List UInt8) (bufs : List (List UInt8))
    (errno : Bool) :
    scanLines memset key (buf :: bufs) errno =
      match supplied key buf with
      | some x => narrowLong cfgopenOrMemsetError x errno
      | none =>
        if memset then scanLines memset key bufs errno else (cfgopenOrMemsetError, errno) := by
  rw [scanLines_cons_acceptedText, supplied_eq]
  cases htext : acceptedText key (ofBuffer buf) with
  | none => rfl
  | some p => exact integerValue_eq (checkAllDigits_of_acceptedText htext) errno

/-- The loop stops at the first buffer that supplies a number. -/
theorem scanLines_eq (key : List UInt8) (bufs : List (List UInt8)) (errno : Bool) :
    scanLines true key bufs errno =
      match bufs.findSome? (supplied key) with
      | some x => narrowLong cfgopenOrMemsetError x errno
      | none => (-1, errno) := by
  induction bufs with
  | nil => rfl
  | cons buf bufs ih =>
    rw [scanLines_cons, List.findSome?_cons]
    cases supplied key buf with
    | none => exact ih
    | some x => rfl

/-- What a lookup in a readable file returns. -/
theorem getIntegerValueFromCfg_eq {env : CfgEnv} {content : List UInt8}
    (hfile : env.file = some content) (hmemset : env.memset = true) (key : List UInt8)
    (errno : Bool) :
    getIntegerValueFromCfg env key errno =
      match firstNumber key content with
      | some x => narrowLong cfgopenOrMemsetError x errno
      | none => (-1, errno) := by
  unfold getIntegerValueFromCfg firstNumber
  rw [hfile]
  dsimp only
  rw [hmemset, scanLines_eq]

/-! ### `errno` -/

/-- A number is read with `errno` unchanged, or the result is the error code. -/
theorem integerValue_errno (p : List UInt8) (errno : Bool) :
    (integerValue p errno).1 = cfgopenOrMemsetError ∨ (integerValue p errno).2 = errno := by
  unfold integerValue
  dsimp only
  split
  · exact .inl rfl
  · split
    · exact .inl rfl
    · next hrange =>
      split
      · exact .inl rfl
      · right
        cases errno
        · simpa using hrange
        · rfl

/-- A lookup leaves `errno` alone or returns the error code. -/
theorem getIntegerValueFromCfg_errno (env : CfgEnv) (key : List UInt8) (errno : Bool) :
    (getIntegerValueFromCfg env key errno).1 = cfgopenOrMemsetError ∨
      (getIntegerValueFromCfg env key errno).2 = errno := by
  unfold getIntegerValueFromCfg
  split
  · exact .inl rfl
  · generalize fgetsLines lineMaxChar _ = bufs
    induction bufs with
    | nil => exact .inr rfl
    | cons buf bufs ih =>
      rw [scanLines_cons_acceptedText]
      cases acceptedText key (ofBuffer buf) with
      | some p => exact integerValue_errno p errno
      | none =>
        dsimp only
        split
        · exact ih
        · exact .inr rfl

end Memlink
