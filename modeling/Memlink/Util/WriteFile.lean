import Memlink.Util.Cgroup

/-!
# Writing numbers to files

`WriteStringToFile` with its retries (`util.c:307–365`) and the writers of numbers over it,
`WriteCgroupPathU64` and `WriteCgroupPathS64` (`util.c:367–395`), together with
`ReadCgroupPathU64`. The file is truncated when it is opened, a failing `write` stores nothing, and
a `write` that stores a part counts as a success. Reading back is about files that hold the bytes
written to them; a file of the kernel may answer with something else.
-/

namespace Memlink

open CString

/-- What becomes of the calls of `write`, one after the other: `none` for a failure, or the
number of bytes there is room for. -/
abbrev Attempts := List (Option Nat)

/-- The loop `while (nrRetry != 0)`: the counter after it and what was stored. `none` if it takes
more calls than are given; a negative counter is never used up. -/
def retryLoop (nrRetry : Int) : Attempts → Option (Int × Option Nat)
  | [] => if nrRetry = 0 then some (0, none) else none
  | none :: attempts =>
    if nrRetry = 0 then some (0, none) else retryLoop (nrRetry - 1) attempts
  | some n :: _ => if nrRetry = 0 then some (0, none) else some (nrRetry, some n)

/-- `WriteStringToFile` on a file that can be opened or not: the result and the content
afterwards. -/
def writeStringToFile (opens : Bool) (string : List UInt8) (retryCount : Int32)
    (attempts : Attempts) (content : List UInt8) : Option (Int × List UInt8) :=
  if opens = false then some (-1, content)
  else
    match attempts with
    | [] => none
    | some n :: _ => some ((string.take n).length, string.take n)
    | none :: attempts =>
      match retryLoop retryCount.toInt attempts with
      | none => none
      | some (nrRetry, stored) =>
        let content := (stored.map fun n ↦ string.take n).getD []
        if nrRetry = 0 then some (-1, content) else some (0, content)

/-- `WriteCgroupPathU64`. The longest number fits the buffer. -/
def writeCgroupPathU64 (opens : Bool) (val : UInt64) (retryCount : Int32) (attempts : Attempts)
    (content : List UInt8) : Option (Int × List UInt8) :=
  writeStringToFile opens (printInt val.toNat) retryCount attempts content

/-- `WriteCgroupPathS64`. -/
def writeCgroupPathS64 (opens : Bool) (val : Int64) (retryCount : Int32) (attempts : Attempts)
    (content : List UInt8) : Option (Int × List UInt8) :=
  writeStringToFile opens (printInt val.toInt) retryCount attempts content

/-! ### The retries -/

/-- The first success among the calls that are made. -/
def firstSuccess (retries : Nat) (attempts : Attempts) : Option Nat :=
  (attempts.take (retries + 1)).findSome? id

/-- With enough calls the loop ends, with a success before the counter is used up or without
one. -/
theorem retryLoop_eq (retries : Nat) (attempts : Attempts) (h : retries ≤ attempts.length) :
    ∃ left : Nat, retryLoop retries attempts =
        some ((left : Int), (attempts.take retries).findSome? id) ∧
      (left = 0 ↔ (attempts.take retries).findSome? id = none) := by
  induction retries generalizing attempts with
  | zero => exact ⟨0, by cases attempts with | nil => rfl | cons a _ => cases a <;> rfl, by simp⟩
  | succ retries ih =>
    have hne : ((retries + 1 : Nat) : Int) ≠ 0 := by omega
    cases attempts with
    | nil => simp at h
    | cons attempt attempts =>
      rw [List.take_succ_cons, List.findSome?_cons]
      cases attempt with
      | none =>
        obtain ⟨left, hloop, hleft⟩ := ih attempts (by simpa using h)
        have hcount : ((retries + 1 : Nat) : Int) - 1 = retries := by omega
        refine ⟨left, ?_, hleft⟩
        rw [retryLoop, if_neg hne, hcount]
        exact hloop
      | some n =>
        refine ⟨retries + 1, ?_, by simp⟩
        rw [retryLoop, if_neg hne]
        rfl

/-- What `WriteStringToFile` returns and leaves in a file that can be opened, for every pattern of
failures. -/
theorem writeStringToFile_eq (string : List UInt8) {retryCount : Int32} {retries : Nat}
    (hcount : retryCount.toInt = retries) {attempts : Attempts} (h : retries < attempts.length)
    (content : List UInt8) :
    ∃ ret, writeStringToFile true string retryCount attempts content =
        some (ret, ((firstSuccess retries attempts).map (string.take ·)).getD []) ∧
      (ret < 0 ↔ firstSuccess retries attempts = none) := by
  unfold writeStringToFile firstSuccess
  rw [if_neg (by simp), hcount]
  cases attempts with
  | nil => simp at h
  | cons attempt attempts =>
    rw [List.take_succ_cons, List.findSome?_cons]
    cases attempt with
    | some n => exact ⟨_, rfl, by simp⟩
    | none =>
      obtain ⟨left, hloop, hleft⟩ := retryLoop_eq retries attempts (Nat.lt_succ_iff.mp h)
      simp only [hloop, id_eq]
      by_cases hzero : left = 0
      · refine ⟨-1, ?_, by simp [hleft.mp hzero]⟩
        rw [if_pos (by omega)]
      · refine ⟨0, ?_, by simpa using fun hnone ↦ hzero (hleft.mpr hnone)⟩
        rw [if_neg (by omega)]

/-! ### Reading back -/

/-- A digit string is worth at least what its beginning is. -/
theorem decimal_take_le (digits : List UInt8) (n : Nat) :
    decimal (digits.take n) ≤ decimal digits := by
  have hgrow : ∀ (ds : List UInt8) (acc : Nat),
      acc ≤ ds.foldl (fun n d ↦ 10 * n + (d.toNat - '0'.toUInt8.toNat)) acc := by
    intro ds
    induction ds with
    | nil => exact Nat.le_refl
    | cons d ds ih =>
      intro acc
      have hstep := ih (10 * acc + (d.toNat - '0'.toUInt8.toNat))
      rw [List.foldl_cons]
      omega
  have hsplit := List.take_append_drop n digits
  unfold decimal
  conv => rhs; rw [← hsplit, List.foldl_append]
  exact hgrow _ _

/-- The beginning of a printed number is that number only if it is all of it. -/
theorem decimal_take_printNat_iff {m n : Nat} (hne : (printNat m).take n ≠ []) :
    decimal ((printNat m).take n) = m ↔ (printNat m).length ≤ n := by
  constructor
  · intro heq
    have hall : ∀ c ∈ (printNat m).take n, isDigit c = true :=
      fun c hc ↦ isDigit_of_mem_printNat (List.mem_of_mem_take hc)
    have hlen := length_printNat_decimal_le hne hall
    rw [heq, List.length_take] at hlen
    omega
  · intro hlen
    rw [List.take_of_length_le hlen, decimal_printNat]

private theorem scanUll_digits (beyond : Nat → UInt64) {content digits : List UInt8}
    {negative : Bool} (hsign : sign (content.dropWhile isSpace) = (negative, digits))
    (hall : ∀ c ∈ digits, isDigit c = true) (hlt : decimal digits < 2 ^ 64) :
    scanUll beyond content =
      if digits = [] then none
      else some (UInt64.ofInt (if negative then -decimal digits else decimal digits)) := by
  unfold scanUll
  rw [hsign]
  dsimp only
  rw [List.takeWhile_eq_self_iff.mpr hall, if_neg (Nat.not_le.mpr hlt)]

private theorem ofInt_natCast_inj {a b : Nat} (ha : a < 2 ^ 64) (hb : b < 2 ^ 64) :
    UInt64.ofInt a = UInt64.ofInt b ↔ a = b := by
  constructor
  · intro h
    have hnat := congrArg UInt64.toNat h
    simp only [UInt64.ofInt, UInt64.toNat_ofNat'] at hnat
    omega
  · rintro rfl
    rfl

private theorem scan_taken_iff (beyond : Nat → UInt64) {content : List UInt8} {negative : Bool}
    {m k : Nat} (hm : m < 2 ^ 64)
    (hsign : sign (content.dropWhile isSpace) = (negative, (printNat m).take k)) :
    scanUll beyond content = some (UInt64.ofInt (if negative then -m else m)) ↔
      (printNat m).length ≤ k := by
  have hall : ∀ c ∈ (printNat m).take k, isDigit c = true :=
    fun c hc ↦ isDigit_of_mem_printNat (List.mem_of_mem_take hc)
  have hle := decimal_take_le (printNat m) k
  rw [decimal_printNat] at hle
  rw [scanUll_digits beyond hsign hall (by omega)]
  by_cases hnil : (printNat m).take k = []
  · have hlen := congrArg List.length hnil
    have hpos := List.length_pos_iff.mpr (printNat_ne_nil m)
    rw [List.length_take, List.length_nil] at hlen
    rw [if_pos hnil]
    exact iff_of_false (by simp) (by omega)
  · rw [if_neg hnil, Option.some_inj, ← decimal_take_printNat_iff hnil]
    cases negative with
    | false => exact ofInt_natCast_inj (by omega) hm
    | true =>
      simp only [if_true, UInt64.ofInt_neg, UInt64.neg_inj]
      exact ofInt_natCast_inj (by omega) hm

/-- What is left of a printed number reads as that number, modulo `2^64`, only if nothing is
missing. -/
theorem scanUll_take_iff (beyond : Nat → UInt64) {x : Int} (hx : x.natAbs < 2 ^ 64) (n : Nat) :
    scanUll beyond ((printInt x).take n) = some (UInt64.ofInt x) ↔ (printInt x).length ≤ n := by
  by_cases hneg : x < 0
  · have hprint : printInt x = '-'.toUInt8 :: printNat x.natAbs := if_pos hneg
    have hval : x = if true then -(x.natAbs : Int) else x.natAbs := by
      rw [if_pos rfl]
      omega
    rw [hprint, List.length_cons]
    cases n with
    | zero =>
      rw [List.take_zero]
      exact iff_of_false (fun h ↦ by cases h) (by omega)
    | succ n =>
      have hsign : sign (('-'.toUInt8 :: (printNat x.natAbs).take n).dropWhile isSpace) =
          (true, (printNat x.natAbs).take n) := rfl
      rw [List.take_succ_cons, Nat.add_le_add_iff_right, ← scan_taken_iff beyond hx hsign]
      exact Eq.congr_right (congrArg (fun y ↦ some (UInt64.ofInt y)) hval)
  · have hprint : printInt x = printNat x.natAbs := if_neg hneg
    have hval : x = if false then -(x.natAbs : Int) else x.natAbs := by
      rw [if_neg Bool.false_ne_true]
      omega
    have hsign : sign (((printNat x.natAbs).take n).dropWhile isSpace) =
        (false, (printNat x.natAbs).take n) := by
      cases htake : (printNat x.natAbs).take n with
      | nil => rfl
      | cons c digits =>
        have hc : isDigit c = true := by
          apply isDigit_of_mem_printNat (n := x.natAbs)
          apply List.mem_of_mem_take (i := n)
          rw [htake]
          exact List.mem_cons_self
        rw [List.dropWhile_cons_of_neg (by simp [isSpace_of_isDigit hc]), sign_of_isDigit hc]
    rw [hprint, ← scan_taken_iff beyond hx hsign]
    exact Eq.congr_right (congrArg (fun y ↦ some (UInt64.ofInt y)) hval)

private theorem written_iff (beyond : Nat → UInt64) (env : FileEnv) (path : List UInt8) {x : Int}
    (hx : x.natAbs < 2 ^ 64) {retryCount : Int32} {retries : Nat}
    (hcount : retryCount.toInt = retries) {attempts : Attempts} (h : retries < attempts.length)
    (content : List UInt8) :
    ∃ ret stored, writeStringToFile true (printInt x) retryCount attempts content =
        some (ret, stored) ∧ (ret < 0 → stored = []) ∧
      (env.read path = some stored → (readCgroupPathU64 beyond env path = some (UInt64.ofInt x) ↔
        ∃ n, firstSuccess retries attempts = some n ∧ (printInt x).length ≤ n)) := by
  obtain ⟨ret, hwrite, hret⟩ := writeStringToFile_eq (printInt x) hcount h content
  refine ⟨ret, _, hwrite, fun hneg ↦ by rw [hret.mp hneg]; rfl, fun hpath ↦ ?_⟩
  rw [readCgroupPathU64, hpath, Option.bind_some]
  cases hfirst : firstSuccess retries attempts with
  | none =>
    refine iff_of_false (fun hs ↦ by cases hs) ?_
    rintro ⟨n, hn, _⟩
    cases hn
  | some n =>
    simp only [Option.map_some, Option.getD_some, scanUll_take_iff beyond hx, Option.some.injEq,
      exists_eq_left']

private theorem ofInt_toInt (val : Int64) : UInt64.ofInt val.toInt = val.toUInt64 := by
  have hb : val.toInt = (val.toUInt64.toNat : Int).bmod (2 ^ 64) := by
    change val.toBitVec.toInt = _
    rw [BitVec.toInt_eq_toNat_bmod]
    rfl
  have hmod : val.toInt % 2 ^ 64 = (val.toUInt64.toNat : Int) % 2 ^ 64 := by
    rw [hb]
    exact Int.bmod_emod
  have hlt := val.toUInt64.toNat_lt
  unfold UInt64.ofInt
  rw [hmod, Int.emod_eq_of_lt (by omega) (by omega), Int.toNat_natCast, UInt64.ofNat_toNat]

/-- For every number of retries and every pattern of failing and partial writes: a number written
to a file that can be opened is the number read from it, a negative one as its two's complement,
exactly when one of the calls of `write` succeeded and the first that did stored all of it; if the
writer fails there, the old content is gone; and a file that cannot be opened is left alone. -/
theorem written_read_back_iff (beyond : Nat → UInt64) (env : FileEnv) (path : List UInt8)
    (retryCount : Int32) (retries : Nat) (hcount : retryCount.toInt = retries)
    (attempts : Attempts) (h : retries < attempts.length) (content : List UInt8) :
    (∀ val : UInt64,
      writeCgroupPathU64 false val retryCount attempts content = some (-1, content) ∧
      ∃ ret stored,
        writeCgroupPathU64 true val retryCount attempts content = some (ret, stored) ∧
        (ret < 0 → stored = []) ∧
        (env.read path = some stored → (readCgroupPathU64 beyond env path = some val ↔
          ∃ n, firstSuccess retries attempts = some n ∧ (printInt val.toNat).length ≤ n))) ∧
    ∀ val : Int64,
      writeCgroupPathS64 false val retryCount attempts content = some (-1, content) ∧
      ∃ ret stored,
        writeCgroupPathS64 true val retryCount attempts content = some (ret, stored) ∧
        (ret < 0 → stored = []) ∧
        (env.read path = some stored → (readCgroupPathU64 beyond env path = some val.toUInt64 ↔
          ∃ n, firstSuccess retries attempts = some n ∧ (printInt val.toInt).length ≤ n)) := by
  refine ⟨fun val ↦ ⟨rfl, ?_⟩, fun val ↦ ⟨rfl, ?_⟩⟩
  · have hx : ((val.toNat : Int)).natAbs < 2 ^ 64 := by
      have hlt := val.toNat_lt
      omega
    have hval : UInt64.ofInt (val.toNat : Int) = val := by
      unfold UInt64.ofInt
      rw [Int.emod_eq_of_lt (by omega) (by omega), Int.toNat_natCast, UInt64.ofNat_toNat]
    obtain ⟨ret, stored, hwrite, hfail, hread⟩ := written_iff beyond env path hx hcount h content
    rw [hval] at hread
    exact ⟨ret, stored, hwrite, hfail, hread⟩
  · have hx : val.toInt.natAbs < 2 ^ 64 := by
      have hlo := val.minValue_le_toInt
      have hhi := val.toInt_le
      change -9223372036854775808 ≤ val.toInt at hlo
      change val.toInt ≤ 9223372036854775807 at hhi
      omega
    obtain ⟨ret, stored, hwrite, hfail, hread⟩ := written_iff beyond env path hx hcount h content
    rw [ofInt_toInt] at hread
    exact ⟨ret, stored, hwrite, hfail, hread⟩

/-- The path of a regular file. -/
def plainPath : List UInt8 := bytes "/tmp/memory.limit_in_bytes"

/-- The host after `-1` was written there, at the second attempt. -/
def plainHost : FileEnv := .ofFiles [(plainPath, bytes "-1")] (by decide +kernel)

/-- `-1` reads as the largest number. -/
theorem written_read_back_negative :
    writeCgroupPathS64 true (-1) 3 [none, some 32, none, none] (bytes "4096") =
        some (0, bytes "-1") ∧
      readCgroupPathU64 (fun _ ↦ 0) plainHost plainPath = some 18446744073709551615 := by
  obtain ⟨ret, stored, hwrite, _, hread⟩ := ((written_read_back_iff (fun _ ↦ 0) plainHost plainPath
    3 3 rfl [none, some 32, none, none] (by decide) (bytes "4096")).2 (-1)).2
  have heq : writeCgroupPathS64 true (-1) 3 [none, some 32, none, none] (bytes "4096") =
      some (0, bytes "-1") := by decide +kernel
  obtain ⟨rfl, rfl⟩ := Prod.mk.inj (Option.some.inj (hwrite.symm.trans heq))
  exact ⟨heq, (hread (by decide +kernel)).mpr ⟨32, by decide, by decide +kernel⟩⟩

end Memlink
