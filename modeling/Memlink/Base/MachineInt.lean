import Mathlib.Algebra.Group.Int.Defs
import Mathlib.Algebra.Group.Nat.Defs

/-!
# 64-bit integers and their values

Conversions between `int64_t` and `uint64_t` and signed arithmetic, in terms of the integer
values. A signed operation whose exact result is in range is exact.
-/

namespace Memlink.MachineInt

/-- An exact result that `int64_t` can hold. -/
def InInt64 (x : Int) : Prop := -2 ^ 63 ≤ x ∧ x < 2 ^ 63

/-- Values in range are unchanged by reduction to `int64_t`. -/
theorem bmod_eq_self {x : Int} (h : InInt64 x) : x.bmod (2 ^ 64) = x := by
  apply Int.bmod_eq_of_le
  · have := h.1
    omega
  · have := h.2
    omega

/-- A product is in range when bounds on the magnitudes of its factors are. -/
theorem inInt64_mul {a b : Int} {m n : Nat} (ha : a.natAbs ≤ m) (hb : b.natAbs ≤ n)
    (hmn : m * n < 2 ^ 63) : InInt64 (a * b) := by
  have habs : (a * b).natAbs < 2 ^ 63 := by
    rw [Int.natAbs_mul]
    exact Nat.lt_of_le_of_lt (Nat.mul_le_mul ha hb) hmn
  exact ⟨by omega, by omega⟩

/-- Exact signed multiplication. -/
theorem toInt_mul {a b : Int64} (h : InInt64 (a.toInt * b.toInt)) :
    (a * b).toInt = a.toInt * b.toInt := by
  rw [Int64.toInt_mul, bmod_eq_self h]

/-- Exact signed subtraction. -/
theorem toInt_sub {a b : Int64} (h : InInt64 (a.toInt - b.toInt)) :
    (a - b).toInt = a.toInt - b.toInt := by
  rw [Int64.toInt_sub, bmod_eq_self h]

/-- Truncating division of a nonpositive value by a nonnegative one is nonpositive. -/
theorem tdiv_nonpos {a b : Int} (ha : a ≤ 0) (hb : 0 ≤ b) : a.tdiv b ≤ 0 := by
  have h := Int.tdiv_nonneg (Int.neg_nonneg_of_nonpos ha) hb
  rw [Int.neg_tdiv] at h
  omega

/-- Division by a positive constant truncates toward zero and stays in range. -/
theorem toInt_div {a b : Int64} (hb : 1 ≤ b.toInt) :
    (a / b).toInt = a.toInt.tdiv b.toInt := by
  rw [Int64.toInt_div]
  apply bmod_eq_self
  have hlo := Int64.le_toInt a
  have hhi := Int64.toInt_lt a
  have habs : (a.toInt.tdiv b.toInt).natAbs ≤ a.toInt.natAbs := by
    rw [Int.natAbs_tdiv]
    exact Nat.div_le_self ..
  unfold InInt64
  by_cases hneg : 0 ≤ a.toInt
  · omega
  · have hsign : a.toInt.tdiv b.toInt ≤ 0 := tdiv_nonpos (by omega) (by omega)
    omega

/-- A nonnegative signed value keeps its value as an unsigned one. -/
theorem toNat_toUInt64 {a : Int64} (h : 0 ≤ a.toInt) : (a.toUInt64.toNat : Int) = a.toInt := by
  have ha : (0 : Int64) ≤ a := Int64.le_iff_toInt_le.mpr h
  rw [Int64.toNat_toUInt64_of_le ha, ← Int64.toNat_toInt, Int.toNat_of_nonneg h]

/-- A negative signed value becomes at least `2^63` as an unsigned one. -/
theorem le_toNat_toUInt64 {a : Int64} (h : a.toInt < 0) : 2 ^ 63 ≤ a.toUInt64.toNat := by
  have hb : a.toInt = (a.toUInt64.toNat : Int).bmod (2 ^ 64) := by
    change a.toBitVec.toInt = _
    rw [BitVec.toInt_eq_toNat_bmod]
    rfl
  have hlt := a.toUInt64.toNat_lt
  by_cases hsmall : a.toUInt64.toNat < 2 ^ 63
  · rw [bmod_eq_self ⟨by omega, by omega⟩] at hb
    omega
  · omega

/-- An unsigned value below `2^63` keeps its value as a signed one. -/
theorem toInt_toInt64 {u : UInt64} (h : u.toNat < 2 ^ 63) : u.toInt64.toInt = u.toNat := by
  have hb : u.toInt64.toInt = (u.toNat : Int).bmod (2 ^ 64) := by
    change u.toBitVec.toInt = _
    rw [BitVec.toInt_eq_toNat_bmod]
    rfl
  rw [hb, bmod_eq_self ⟨by omega, by omega⟩]

/-- A wrapping difference is small exactly when it does not wrap and is small. -/
theorem sub_lt_iff {a b c : UInt64} (h : b.toNat + c.toNat ≤ 2 ^ 64) :
    a - b < c ↔ b.toNat ≤ a.toNat ∧ a.toNat < b.toNat + c.toNat := by
  have ha := a.toNat_lt
  have hb := b.toNat_lt
  rw [UInt64.lt_iff_toNat_lt, UInt64.toNat_sub]
  by_cases hle : b.toNat ≤ a.toNat
  · omega
  · omega

end Memlink.MachineInt
