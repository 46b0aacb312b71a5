import Mathlib.Data.List.TakeWhile

/-!
# C strings and line input

The parts of `<string.h>`, `<stdio.h>` and `<stdlib.h>` that line-oriented readers of text
files use, on byte lists: what a buffer holds as a C string, the successive results of
`fgets`, and `strtol` in base 10 for a 64-bit `long`.
-/

namespace Memlink.CString

/-- The bytes of an ASCII text. -/
def bytes (s : String) : List UInt8 := s.toList.map Char.toUInt8

/-- The C string in a buffer: everything before the first NUL. -/
def ofBuffer (buf : List UInt8) : List UInt8 := buf.takeWhile (· ≠ 0)

/-- Without a NUL the string is the whole buffer. -/
theorem ofBuffer_eq_self {buf : List UInt8} (h : 0 ∉ buf) : ofBuffer buf = buf := by
  apply List.takeWhile_eq_self_iff.mpr
  intro c hc
  simpa using fun he : c = 0 ↦ h (he ▸ hc)

/-- The string ends at the first NUL. -/
theorem ofBuffer_append_cons {seg : List UInt8} (h : 0 ∉ seg) (rest : List UInt8) :
    ofBuffer (seg ++ 0 :: rest) = seg := by
  have hall : ∀ c ∈ seg, decide (c ≠ 0) = true := by
    intro c hc
    simpa using fun he : c = 0 ↦ h (he ▸ hc)
  unfold ofBuffer
  rw [List.takeWhile_append_of_pos hall]
  simp

/-- Memory before a NUL splits into the string at its start and what follows it: nothing, or a
NUL. -/
theorem exists_segment (mem rest : List UInt8) : ∃ seg tail, mem = seg ++ tail ∧ 0 ∉ seg ∧
    (tail = [] ∨ ∃ more, tail = 0 :: more) ∧ ofBuffer (mem ++ 0 :: rest) = seg := by
  by_cases h : 0 ∈ mem
  · obtain ⟨seg, more, rfl, hseg⟩ := List.eq_append_cons_of_mem h
    refine ⟨seg, 0 :: more, rfl, hseg, .inr ⟨more, rfl⟩, ?_⟩
    rw [List.append_assoc]
    exact ofBuffer_append_cons hseg (more ++ 0 :: rest)
  · exact ⟨mem, [], (List.append_nil mem).symm, h, .inl rfl, ofBuffer_append_cons h rest⟩

/-- A string contains no NUL. -/
theorem zero_notMem_ofBuffer (buf : List UInt8) : 0 ∉ ofBuffer buf := by
  intro hmem
  simpa using List.mem_takeWhile_imp hmem

/-- Memory before a NUL is the string at its start, a NUL and something. -/
theorem exists_ofBuffer_append (mem rest : List UInt8) :
    ∃ after, mem ++ 0 :: rest = ofBuffer mem ++ 0 :: after := by
  by_cases h : 0 ∈ mem
  · obtain ⟨seg, more, rfl, hseg⟩ := List.eq_append_cons_of_mem h
    refine ⟨more ++ 0 :: rest, ?_⟩
    rw [ofBuffer_append_cons hseg, List.append_assoc, List.cons_append]
  · exact ⟨rest, by rw [ofBuffer_eq_self h]⟩

/-- `isdigit` in the C locale. -/
def isDigit (c : UInt8) : Bool := '0'.toUInt8 ≤ c && c ≤ '9'.toUInt8

/-- `isspace` in the C locale. -/
def isSpace (c : UInt8) : Bool := c = ' '.toUInt8 || 9 ≤ c && c ≤ 13

/-- The digits, by their codes. -/
theorem isDigit_iff {c : UInt8} : isDigit c = true ↔ 48 ≤ c.toNat ∧ c.toNat ≤ 57 := by
  simp only [isDigit, Bool.and_eq_true, decide_eq_true_eq, UInt8.le_iff_toNat_le]
  exact Iff.rfl

/-- The white space, by its codes. -/
theorem isSpace_iff {c : UInt8} :
    isSpace c = true ↔ c.toNat = 32 ∨ 9 ≤ c.toNat ∧ c.toNat ≤ 13 := by
  simp only [isSpace, Bool.or_eq_true, Bool.and_eq_true, decide_eq_true_eq,
    UInt8.le_iff_toNat_le, ← UInt8.toNat_inj]
  exact Iff.rfl

/-- No digit is white space. -/
theorem isSpace_of_isDigit {c : UInt8} (h : isDigit c = true) : isSpace c = false := by
  rw [isDigit_iff] at h
  apply Bool.eq_false_iff.mpr
  rw [ne_eq, isSpace_iff]
  omega

/-! ### Line input -/

/-- `fgets` with a buffer that holds `n` bytes and the final NUL: what it stores, and what is
left of the input. It stops after a newline. -/
def fgets : Nat → List UInt8 → List UInt8 × List UInt8
  | 0, input => ([], input)
  | _ + 1, [] => ([], [])
  | n + 1, c :: input =>
    if c = '\n'.toUInt8 then ([c], input)
    else (c :: (fgets n input).1, (fgets n input).2)

/-- What a loop over `fgets` reads, call by call, when `left` bytes still fit into the buffer
of `n`. -/
def fgetsFrom (n : Nat) : Nat → List UInt8 → List (List UInt8)
  | _, [] => []
  | left, c :: input =>
    if c = '\n'.toUInt8 ∨ left ≤ 1 then [c] :: fgetsFrom n n input
    else
      match fgetsFrom n (left - 1) input with
      | [] => [[c]]
      | line :: lines => (c :: line) :: lines

/-- The results of `while (fgets(buf, size, fp) != NULL)`. -/
def fgetsLines (size : Nat) (input : List UInt8) : List (List UInt8) :=
  fgetsFrom (size - 1) (size - 1) input

private theorem fgetsFrom_cons (n : Nat) {left : Nat} (hleft : 0 < left) (c : UInt8)
    (input : List UInt8) :
    fgetsFrom n left (c :: input) =
      (fgets left (c :: input)).1 :: fgetsFrom n n (fgets left (c :: input)).2 := by
  obtain ⟨k, rfl⟩ : ∃ k, left = k + 1 := ⟨left - 1, by omega⟩
  induction input generalizing c k with
  | nil =>
    rw [fgetsFrom, fgets]
    by_cases hnl : c = '\n'.toUInt8
    · simp [hnl, fgetsFrom]
    · cases k <;> simp [hnl, fgetsFrom, fgets]
  | cons d input ih =>
    rw [fgetsFrom, fgets]
    by_cases hnl : c = '\n'.toUInt8
    · simp [hnl]
    · cases k with
      | zero => simp [hnl, fgets]
      | succ k =>
        rw [if_neg (by simp [hnl]), if_neg hnl, Nat.add_sub_cancel, ih d k (Nat.succ_pos k)]

/-- The loop reads one line and goes on with what is left. -/
theorem fgetsLines_cons {size : Nat} (hsize : 1 < size) (c : UInt8) (input : List UInt8) :
    fgetsLines size (c :: input) =
      (fgets (size - 1) (c :: input)).1 :: fgetsLines size (fgets (size - 1) (c :: input)).2 :=
  fgetsFrom_cons (size - 1) (by omega) c input

/-! ### Numbers -/

/-- The value of a digit string. -/
def decimal (digits : List UInt8) : Nat :=
  digits.foldl (fun n d ↦ 10 * n + (d.toNat - '0'.toUInt8.toNat)) 0

/-- The result of `strtol`: the value, the text at `endptr`, and whether `errno` was set to
`ERANGE`. -/
structure StrtolResult where
  value : Int64
  rest : List UInt8
  overflow : Bool
  deriving DecidableEq, Repr

/-- A number within the range of `long`, or its nearest bound with an overflow. -/
def clampLong (x : Int) (rest : List UInt8) : StrtolResult :=
  if x < Int64.minValue.toInt then ⟨Int64.minValue, rest, true⟩
  else if Int64.maxValue.toInt < x then ⟨Int64.maxValue, rest, true⟩
  else ⟨Int64.ofInt x, rest, false⟩

/-- The optional sign of a number: whether it is negative, and what follows it. -/
def sign : List UInt8 → Bool × List UInt8
  | [] => (false, [])
  | c :: s =>
    if c = '-'.toUInt8 then (true, s) else if c = '+'.toUInt8 then (false, s) else (false, c :: s)

/-- A digit is no sign. -/
theorem sign_of_isDigit {c : UInt8} (h : isDigit c = true) (s : List UInt8) :
    sign (c :: s) = (false, c :: s) := by
  rw [isDigit_iff] at h
  have hminus : c ≠ '-'.toUInt8 := by
    rintro rfl
    exact absurd h (by decide)
  have hplus : c ≠ '+'.toUInt8 := by
    rintro rfl
    exact absurd h (by decide)
  rw [sign, if_neg hminus, if_neg hplus]

/-- `strtol(s, &endptr, 10)`: leading white space, a sign and digits; without digits the value
is 0 and `endptr` is `s`. -/
def strtol (s : List UInt8) : StrtolResult :=
  let (negative, body) := sign (s.dropWhile isSpace)
  let digits := body.takeWhile isDigit
  if digits = [] then ⟨0, s, false⟩
  else clampLong (if negative then -decimal digits else decimal digits) (body.dropWhile isDigit)

/-- A sign and digits are read to their end. -/
theorem strtol_eq {s digits : List UInt8} {negative : Bool}
    (hsign : sign (s.dropWhile isSpace) = (negative, digits)) (hne : digits ≠ [])
    (hall : ∀ c ∈ digits, isDigit c = true) :
    strtol s = clampLong (if negative then -decimal digits else decimal digits) [] := by
  have htake : digits.takeWhile isDigit = digits := List.takeWhile_eq_self_iff.mpr hall
  have hdrop : digits.dropWhile isDigit = [] := List.dropWhile_eq_nil_iff.mpr hall
  unfold strtol
  rw [hsign]
  dsimp only
  rw [htake, hdrop, if_neg hne]

/-! ### Narrowing -/

/-- The range of `long`. -/
def InLong (x : Int) : Prop := Int64.minValue.toInt ≤ x ∧ x ≤ Int64.maxValue.toInt

/-- The range of `int`. -/
def InInt (x : Int) : Prop := Int32.minValue.toInt ≤ x ∧ x ≤ Int32.maxValue.toInt

instance (x : Int) : Decidable (InLong x) :=
  inferInstanceAs (Decidable (Int64.minValue.toInt ≤ x ∧ x ≤ Int64.maxValue.toInt))

instance (x : Int) : Decidable (InInt x) :=
  inferInstanceAs (Decidable (Int32.minValue.toInt ≤ x ∧ x ≤ Int32.maxValue.toInt))

/-- The end of a reader of an `int`: `n = strtol(s, &endptr, 10)` and the three checks after
it, with the code of a failed check. -/
def checkedLong (err : Int32) (s : List UInt8) (errno : Bool) : Int32 × Bool :=
  let r := strtol s
  let n : Int32 := r.value.toInt32
  let errno := errno || r.overflow
  if r.rest ≠ [] then (err, errno)
  else if errno then (err, errno)
  else if n < Int32.minValue ∨ n > Int32.maxValue then (err, errno)
  else (n, errno)

/-- How such a reader delivers a number: narrowed to `int`, or as the error code if it
overflows `long` or `errno` is `ERANGE` from before. -/
def narrowLong (err : Int32) (x : Int) (errno : Bool) : Int32 × Bool :=
  if InLong x ∧ errno = false then (Int32.ofInt x, false) else (err, true)

/-- `clampLong` overflows outside the range of `long` and is exact inside. -/
theorem clampLong_eq (x : Int) (rest : List UInt8) :
    (clampLong x rest).rest = rest ∧ (clampLong x rest).overflow = !decide (InLong x) ∧
      (InLong x → (clampLong x rest).value = Int64.ofInt x) := by
  unfold clampLong
  split
  · next hlo =>
    have hout : ¬ InLong x := fun h ↦ Int.not_le.mpr hlo h.1
    exact ⟨rfl, by simp [hout], fun h ↦ absurd h hout⟩
  · next hlo =>
    split
    · next hhi =>
      have hout : ¬ InLong x := fun h ↦ Int.not_le.mpr hhi h.2
      exact ⟨rfl, by simp [hout], fun h ↦ absurd h hout⟩
    · next hhi =>
      have hin : InLong x := ⟨Int.not_lt.mp hlo, Int.not_lt.mp hhi⟩
      exact ⟨rfl, by simp [hin], fun _ ↦ rfl⟩

/-- The last check compares an `int` with its own range. -/
theorem not_outside_int (n : Int32) : ¬ (n < Int32.minValue ∨ n > Int32.maxValue) := by
  simp only [gt_iff_lt, not_or, Int32.not_lt]
  exact ⟨n.minValue_le, n.le_maxValue⟩

/-- A sign and digits are delivered as the number they stand for. -/
theorem checkedLong_eq {s digits : List UInt8} {negative : Bool}
    (hsign : sign (s.dropWhile isSpace) = (negative, digits)) (hne : digits ≠ [])
    (hall : ∀ c ∈ digits, isDigit c = true) (err : Int32) (errno : Bool) :
    checkedLong err s errno =
      narrowLong err (if negative then -decimal digits else decimal digits) errno := by
  have hread := strtol_eq hsign hne hall
  generalize (if negative then -(decimal digits : Int) else decimal digits) = x at hread ⊢
  obtain ⟨hrest, hover, hexact⟩ := clampLong_eq x []
  unfold checkedLong narrowLong
  rw [hread]
  dsimp only
  rw [hrest, hover, if_neg (by simp)]
  by_cases hin : InLong x
  · cases errno with
    | true => simp
    | false =>
      rw [if_neg (by simp [hin]), if_neg (not_outside_int _), if_pos ⟨hin, rfl⟩, hexact hin,
        Int64.toInt32_ofInt]
      simp [hin]
  · rw [if_pos (by simp [hin]), if_neg fun hc ↦ hin hc.1]
    simp [hin]

/-- Numbers that fit into an `int` are delivered. -/
theorem toInt_ofInt_of_inInt {x : Int} (h : InInt x) : (Int32.ofInt x).toInt = x := by
  obtain ⟨hlo, hhi⟩ := h
  change -2147483648 ≤ x at hlo
  change x ≤ 2147483647 at hhi
  exact Int32.toInt_ofInt_of_le hlo (by omega)

/-- An `int` is a `long`. -/
theorem InInt.inLong {x : Int} (h : InInt x) : InLong x := by
  obtain ⟨hlo, hhi⟩ := h
  change -2147483648 ≤ x at hlo
  change x ≤ 2147483647 at hhi
  constructor
  · change -9223372036854775808 ≤ x
    omega
  · change x ≤ 9223372036854775807
    omega

end Memlink.CString
