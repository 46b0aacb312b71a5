import Mathlib.Algebra.Group.Nat.Defs
import Memlink.Base.CString

/-!
# Printing integers

The text that `%d` and `%ld` print for an integer, and that reading it back gives the integer.
-/

namespace Memlink.CString

/-- The decimal digits of a number, as `%d` prints them. -/
def printNat (n : Nat) : List UInt8 := (Nat.toDigits 10 n).map Char.toUInt8

/-- `%d` and `%ld`. -/
def printInt (x : Int) : List UInt8 :=
  if x < 0 then '-'.toUInt8 :: printNat x.natAbs else printNat x.natAbs

private theorem toNat_of_isDigit {c : Char} (h : c.isDigit = true) :
    c.toUInt8.toNat = c.toNat ∧ 48 ≤ c.toNat ∧ c.toNat ≤ 57 := by
  simp only [Char.isDigit, ge_iff_le, Bool.and_eq_true, decide_eq_true_eq,
    UInt32.le_iff_toNat_le] at h
  have hlo : 48 ≤ c.toNat := h.1
  have hhi : c.toNat ≤ 57 := h.2
  refine ⟨?_, hlo, hhi⟩
  change c.toNat % 256 = c.toNat
  exact Nat.mod_eq_of_lt (by omega)

/-- Printed numbers consist of digits. -/
theorem isDigit_of_mem_printNat {n : Nat} {c : UInt8} (h : c ∈ printNat n) :
    isDigit c = true := by
  obtain ⟨d, hd, rfl⟩ := List.mem_map.mp h
  obtain ⟨hval, hlo, hhi⟩ :=
    toNat_of_isDigit (Nat.isDigit_of_mem_toDigits (by decide) (Nat.le_refl 10) hd)
  rw [isDigit_iff, hval]
  exact ⟨hlo, hhi⟩

/-- Every number is printed. -/
theorem printNat_ne_nil (n : Nat) : printNat n ≠ [] := by
  unfold printNat
  rw [ne_eq, List.map_eq_nil_iff]
  exact Nat.toDigits_ne_nil

/-- A printed number reads as itself. -/
theorem decimal_printNat (n : Nat) : decimal (printNat n) = n := by
  have hfold : ∀ (cs : List Char) (acc : Nat), (∀ c ∈ cs, c.isDigit = true) →
      (cs.map Char.toUInt8).foldl (fun n d ↦ 10 * n + (d.toNat - '0'.toUInt8.toNat)) acc =
        Nat.ofDigitChars 10 cs acc := by
    intro cs
    induction cs with
    | nil => exact fun acc _ ↦ rfl
    | cons c cs ih =>
      intro acc hall
      have hval := (toNat_of_isDigit (hall c List.mem_cons_self)).1
      rw [List.map_cons, List.foldl_cons, ih _ fun d hd ↦ hall d (List.mem_cons_of_mem c hd),
        Nat.ofDigitChars_cons, hval]
      rfl
  unfold decimal printNat
  rw [hfold _ _ fun c hc ↦ Nat.isDigit_of_mem_toDigits (by decide) (Nat.le_refl 10) hc,
    Nat.ofDigitChars_ten_toDigits]

private theorem foldl_decimal_lt (ds : List UInt8) (hall : ∀ c ∈ ds, isDigit c = true)
    (acc : Nat) :
    ds.foldl (fun n d ↦ 10 * n + (d.toNat - '0'.toUInt8.toNat)) acc <
      (acc + 1) * 10 ^ ds.length := by
  induction ds generalizing acc with
  | nil => simp
  | cons d ds ih =>
    have hd := isDigit_iff.mp (hall d List.mem_cons_self)
    have hzero : '0'.toUInt8.toNat = 48 := rfl
    have hstep : 10 * acc + (d.toNat - '0'.toUInt8.toNat) + 1 ≤ (acc + 1) * 10 := by omega
    calc (d :: ds).foldl (fun n d ↦ 10 * n + (d.toNat - '0'.toUInt8.toNat)) acc
        < (10 * acc + (d.toNat - '0'.toUInt8.toNat) + 1) * 10 ^ ds.length :=
          ih (fun c hc ↦ hall c (List.mem_cons_of_mem d hc)) _
      _ ≤ (acc + 1) * 10 * 10 ^ ds.length := Nat.mul_le_mul_right _ hstep
      _ = (acc + 1) * 10 ^ (d :: ds).length := by
          rw [List.length_cons, Nat.pow_succ, Nat.mul_assoc, Nat.mul_comm 10]

/-- Printing does not lengthen a digit string. -/
theorem length_printNat_decimal_le {ds : List UInt8} (hne : ds ≠ [])
    (hall : ∀ c ∈ ds, isDigit c = true) : (printNat (decimal ds)).length ≤ ds.length := by
  unfold printNat
  rw [List.length_map, Nat.length_toDigits_le_iff (by decide) (List.length_pos_iff.mpr hne)]
  have hlt := foldl_decimal_lt ds hall 0
  rwa [Nat.zero_add, Nat.one_mul] at hlt

/-- An `int` is printed in at most eleven characters. -/
theorem length_printInt_le (v : Int32) : (printInt v.toInt).length ≤ 11 := by
  have hlo : -2147483648 ≤ v.toInt := v.minValue_le_toInt
  have hhi : v.toInt ≤ 2147483647 := v.toInt_le
  have hdigits : (printNat v.toInt.natAbs).length ≤ 10 := by
    unfold printNat
    rw [List.length_map, Nat.length_toDigits_le_iff (by decide) (by decide)]
    omega
  unfold printInt
  split
  · rw [List.length_cons]
    omega
  · omega

/-- Printed integers consist of digits and a minus sign. -/
theorem mem_printInt {x : Int} {c : UInt8} (h : c ∈ printInt x) :
    c = '-'.toUInt8 ∨ isDigit c = true := by
  unfold printInt at h
  split at h
  · rcases List.mem_cons.mp h with rfl | h
    · exact .inl rfl
    · exact .inr (isDigit_of_mem_printNat h)
  · exact .inr (isDigit_of_mem_printNat h)

/-- Every integer is printed. -/
theorem printInt_ne_nil (x : Int) : printInt x ≠ [] := by
  unfold printInt
  split
  · exact List.cons_ne_nil _ _
  · exact printNat_ne_nil _

end Memlink.CString
