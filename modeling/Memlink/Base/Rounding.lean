import Memlink.Base.Binary32
import Mathlib.Algebra.Order.Field.Power
import Mathlib.Data.Nat.Log
import Mathlib.Tactic.FieldSimp
import Mathlib.Tactic.Linarith
import Mathlib.Tactic.Positivity
import Mathlib.Tactic.Ring
import Mathlib.Tactic.SplitIfs

/-!
# The order of binary32 values

Rounding as a map of rationals. The integer nearest to a fraction grows with it, and so does
the value of a rounded fraction: within one binade the significands compare, and between two
binades a power of two stands. Conversion, division and multiplication inherit this.
-/

namespace Memlink.Binary32

/-- The rational that a fraction stands for. -/
def Frac.val (x : Frac) : ℚ := x.num / x.den

/-! ### The nearest integer -/

/-- The integers that the rounded fraction reaches: those up to half a unit below it, and at
half a unit the even ones. -/
theorem le_roundDiv_iff {n d m : Nat} (hd : 0 < d) (hm : 0 < m) :
    m ≤ roundDiv n d ↔ (2 * m - 1) * d < 2 * n ∨ (2 * m - 1) * d = 2 * n ∧ m % 2 = 0 := by
  obtain ⟨k, rfl⟩ : ∃ k, m = k + 1 := ⟨m - 1, by omega⟩
  have hmul : (2 * (k + 1) - 1) * d = 2 * (k * d) + d := by
    rw [show 2 * (k + 1) - 1 = 2 * k + 1 by omega, Nat.add_mul, Nat.one_mul, Nat.mul_assoc]
  have hdiv : n / d * d + n % d = n := Nat.div_add_mod' n d
  have hmod := Nat.mod_lt n hd
  rw [hmul]
  unfold roundDiv
  dsimp only
  generalize n / d = q at hdiv ⊢
  generalize n % d = r at hdiv hmod ⊢
  -- Only at `m = q + 1` does the remainder decide.
  rcases Nat.lt_trichotomy k q with hlt | rfl | hgt
  · have hle : (k + 1) * d ≤ q * d := Nat.mul_le_mul_right d hlt
    rw [Nat.add_mul, Nat.one_mul] at hle
    split_ifs <;> omega
  · split_ifs <;> omega
  · have hle : (q + 1) * d ≤ k * d := Nat.mul_le_mul_right d hgt
    rw [Nat.add_mul, Nat.one_mul] at hle
    split_ifs <;> omega

/-- A larger fraction is not rounded to a smaller integer. -/
theorem roundDiv_mono {n d n' d' : Nat} (hd : 0 < d) (hd' : 0 < d') (h : n * d' ≤ n' * d) :
    roundDiv n d ≤ roundDiv n' d' := by
  rcases Nat.eq_zero_or_pos (roundDiv n d) with hzero | hpos
  · omega
  · have hreach := (le_roundDiv_iff hd hpos).mp (Nat.le_refl _)
    generalize roundDiv n d = m at hpos hreach ⊢
    apply (le_roundDiv_iff hd' hpos).mpr
    generalize 2 * m - 1 = c at hreach ⊢
    have hscaled : 2 * n * d' ≤ 2 * n' * d := by
      rw [Nat.mul_assoc, Nat.mul_assoc]
      exact Nat.mul_le_mul_left 2 h
    rcases hreach with hlt | ⟨heq, heven⟩
    · left
      apply Nat.lt_of_mul_lt_mul_right (a := d)
      calc c * d' * d = c * d * d' := Nat.mul_right_comm c d' d
        _ < 2 * n * d' := Nat.mul_lt_mul_of_pos_right hlt hd'
        _ ≤ 2 * n' * d := hscaled
    · have hle : c * d' ≤ 2 * n' := by
        apply Nat.le_of_mul_le_mul_right _ hd
        calc c * d' * d = c * d * d' := Nat.mul_right_comm c d' d
          _ = 2 * n * d' := by rw [heq]
          _ ≤ 2 * n' * d := hscaled
      rcases Nat.lt_or_eq_of_le hle with hlt | heq'
      · exact .inl hlt
      · exact .inr ⟨heq', heven⟩

/-- An integer is its own nearest. -/
theorem roundDiv_one (m : Nat) : roundDiv m 1 = m := by
  unfold roundDiv
  simp [Nat.mod_one]

/-! ### The binade -/

/-- A power of two with an integer exponent, as the fraction that `round` computes with. -/
theorem two_zpow_eq (k : Int) : (2 : ℚ) ^ k = 2 ^ k.toNat / 2 ^ (-k).toNat := by
  rcases Int.le_total 0 k with hk | hk
  · rw [Int.toNat_of_nonpos (z := -k) (by omega), pow_zero, div_one, ← zpow_natCast,
      Int.toNat_of_nonneg hk]
  · rw [Int.toNat_of_nonpos hk, pow_zero, one_div, ← zpow_natCast, ← zpow_neg,
      Int.toNat_of_nonneg (by omega), neg_neg]

/-- The scaled fraction of `round` is the value in units of the last significand bit. -/
theorem scaled_div (n d : Nat) (k : Int) :
    ((n * 2 ^ (-k).toNat : Nat) : ℚ) / ((d * 2 ^ k.toNat : Nat) : ℚ) = n / d / 2 ^ k := by
  rw [two_zpow_eq]
  push_cast
  field_simp

/-- The test of `ulpExponent` on rationals. -/
theorem scaled_lt_iff (n : Nat) {d : Nat} (hd : 0 < d) (k : Int) :
    n * 2 ^ (-k).toNat < 2 ^ 23 * (d * 2 ^ k.toNat) ↔ (n : ℚ) / d < 2 ^ (k + 23) := by
  have hscale : 0 < d * 2 ^ k.toNat := Nat.mul_pos hd (Nat.two_pow_pos _)
  have hden : (0 : ℚ) < (d * 2 ^ k.toNat : Nat) := Nat.cast_pos.mpr hscale
  have hunit : (0 : ℚ) < 2 ^ k := zpow_pos (by norm_num) k
  rw [← Nat.cast_lt (α := ℚ), Nat.cast_mul (2 ^ 23), ← div_lt_iff₀ hden, scaled_div,
    div_lt_iff₀ hunit, add_comm, zpow_add₀ (by norm_num)]
  norm_num

/-- The exponent puts the significand between `2^23` and `2^24`. -/
theorem ulpExponent_spec {n d : Nat} (hn : 0 < n) (hd : 0 < d) :
    (2 : ℚ) ^ (ulpExponent n d + 23) ≤ n / d ∧ (n : ℚ) / d < 2 ^ (ulpExponent n d + 24) := by
  have hnlo : (2 : ℚ) ^ (n.log2 : Int) ≤ n := by exact_mod_cast Nat.log2_self_le hn.ne'
  have hnhi : (n : ℚ) < 2 ^ ((n.log2 + 1 : Nat) : Int) := by exact_mod_cast Nat.lt_log2_self
  have hdlo : (2 : ℚ) ^ (d.log2 : Int) ≤ d := by exact_mod_cast Nat.log2_self_le hd.ne'
  have hdhi : (d : ℚ) < 2 ^ ((d.log2 + 1 : Nat) : Int) := by exact_mod_cast Nat.lt_log2_self
  have hdpos : (0 : ℚ) < d := Nat.cast_pos.mpr hd
  have hlower : (2 : ℚ) ^ ((n.log2 : Int) - (d.log2 + 1 : Nat)) ≤ n / d := by
    rw [zpow_sub₀ (by norm_num)]
    exact div_le_div₀ (Nat.cast_nonneg n) hnlo hdpos hdhi.le
  have hupper : (n : ℚ) / d < 2 ^ (((n.log2 + 1 : Nat) : Int) - d.log2) := by
    rw [zpow_sub₀ (by norm_num)]
    exact div_lt_div₀ hnhi hdlo (by positivity) (by positivity)
  unfold ulpExponent
  dsimp only
  split
  · next hlt =>
    have hlt := (scaled_lt_iff n hd _).mp hlt
    constructor
    · convert hlower using 2
      push_cast
      ring
    · convert hlt using 2
      ring
  · next hge =>
    have hge := not_lt.mp (mt (scaled_lt_iff n hd _).mpr hge)
    refine ⟨hge, ?_⟩
    convert hupper using 2
    push_cast
    ring

/-! ### Rounding -/

/-- Values compare as their cross products. -/
theorem Frac.val_le_iff {x y : Frac} (hx : 0 < x.den) (hy : 0 < y.den) :
    x.val ≤ y.val ↔ x.num * y.den ≤ y.num * x.den := by
  unfold Frac.val
  rw [div_le_div_iff₀ (Nat.cast_pos.mpr hx) (Nat.cast_pos.mpr hy)]
  exact_mod_cast Iff.rfl

/-- `lt` is the order of the values. -/
theorem lt_iff {x y : Frac} (hx : 0 < x.den) (hy : 0 < y.den) :
    lt x y = true ↔ x.val < y.val := by
  rw [← not_le, Frac.val_le_iff hy hx, not_le, lt, decide_eq_true_eq]

/-- Values are not negative. -/
theorem Frac.val_nonneg (x : Frac) : 0 ≤ x.val :=
  div_nonneg (Nat.cast_nonneg _) (Nat.cast_nonneg _)

/-- A positive value has a positive numerator. -/
theorem Frac.val_pos_iff {x : Frac} (hx : 0 < x.den) : 0 < x.val ↔ 0 < x.num := by
  unfold Frac.val
  rw [div_pos_iff_of_pos_right (Nat.cast_pos.mpr hx), Nat.cast_pos]

/-- A rounded fraction has a positive denominator. -/
theorem den_round_pos (x : Frac) : 0 < (round x).den := by
  unfold round
  split
  · exact Nat.one_pos
  · exact Nat.two_pow_pos _

/-- Zero is not rounded. -/
theorem val_round_zero {x : Frac} (h : x.num = 0) : (round x).val = 0 := by
  unfold round
  rw [if_pos h]
  simp [Frac.val]

/-- The significand of a rounded fraction. -/
def significand (x : Frac) : Nat :=
  let k := ulpExponent x.num x.den
  roundDiv (x.num * 2 ^ (-k).toNat) (x.den * 2 ^ k.toNat)

/-- A rounded fraction is its significand in units of the last bit. -/
theorem val_round {x : Frac} (h : x.num ≠ 0) :
    (round x).val = significand x * 2 ^ ulpExponent x.num x.den := by
  unfold round significand Frac.val
  rw [if_neg h, two_zpow_eq]
  push_cast
  rw [mul_div_assoc]

/-- The significand has 24 bits, or is the next power of two. -/
theorem significand_range {x : Frac} (hnum : 0 < x.num) (hden : 0 < x.den) :
    2 ^ 23 ≤ significand x ∧ significand x ≤ 2 ^ 24 := by
  obtain ⟨hlo, hhi⟩ := ulpExponent_spec hnum hden
  unfold significand
  generalize ulpExponent x.num x.den = k at hlo hhi ⊢
  dsimp only
  have hpos : 0 < x.den * 2 ^ k.toNat := Nat.mul_pos hden (Nat.two_pow_pos _)
  have hunit : (0 : ℚ) < 2 ^ k := zpow_pos (by norm_num) k
  have hcast : (0 : ℚ) < (x.den * 2 ^ k.toNat : Nat) := Nat.cast_pos.mpr hpos
  have hbase : (2 : ℚ) ≠ 0 := by norm_num
  constructor
  · rw [← roundDiv_one (2 ^ 23)]
    apply roundDiv_mono Nat.one_pos hpos
    rw [Nat.mul_one, ← Nat.cast_le (α := ℚ), Nat.cast_mul (2 ^ 23), ← le_div_iff₀ hcast,
      scaled_div, le_div_iff₀ hunit]
    rw [add_comm, zpow_add₀ hbase] at hlo
    exact_mod_cast hlo
  · rw [← roundDiv_one (2 ^ 24)]
    apply roundDiv_mono hpos Nat.one_pos
    rw [Nat.mul_one, ← Nat.cast_le (α := ℚ), Nat.cast_mul (2 ^ 24), ← div_le_iff₀ hcast,
      scaled_div, div_le_iff₀ hunit]
    rw [add_comm, zpow_add₀ hbase] at hhi
    exact_mod_cast hhi.le

/-- Rounding stays within the binade. -/
theorem round_range {x : Frac} (hnum : 0 < x.num) (hden : 0 < x.den) :
    (2 : ℚ) ^ (ulpExponent x.num x.den + 23) ≤ (round x).val ∧
      (round x).val ≤ 2 ^ (ulpExponent x.num x.den + 24) := by
  obtain ⟨hlo, hhi⟩ := significand_range hnum hden
  have hunit : (0 : ℚ) < 2 ^ ulpExponent x.num x.den := zpow_pos (by norm_num) _
  rw [val_round hnum.ne', add_comm, zpow_add₀ (by norm_num), add_comm, zpow_add₀ (by norm_num)]
  constructor
  · exact mul_le_mul_of_nonneg_right (by exact_mod_cast hlo) hunit.le
  · exact mul_le_mul_of_nonneg_right (by exact_mod_cast hhi) hunit.le

/-- In one binade the significands follow the values. -/
theorem significand_mono {x y : Frac} (hx : 0 < x.den) (hy : 0 < y.den) (h : x.val ≤ y.val)
    (hk : ulpExponent x.num x.den = ulpExponent y.num y.den) : significand x ≤ significand y := by
  unfold significand
  rw [hk]
  generalize ulpExponent y.num y.den = k
  dsimp only
  apply roundDiv_mono (Nat.mul_pos hx (Nat.two_pow_pos _)) (Nat.mul_pos hy (Nat.two_pow_pos _))
  have hcross := Nat.mul_le_mul_right (2 ^ (-k).toNat * 2 ^ k.toNat)
    ((Frac.val_le_iff hx hy).mp h)
  linarith

/-- Rounding is monotone. -/
theorem round_mono {x y : Frac} (hx : 0 < x.den) (hy : 0 < y.den) (h : x.val ≤ y.val) :
    (round x).val ≤ (round y).val := by
  rcases Nat.eq_zero_or_pos x.num with hzero | hxpos
  · rw [val_round_zero hzero]
    exact (round y).val_nonneg
  · have hypos : 0 < y.num :=
      (Frac.val_pos_iff hy).mp (lt_of_lt_of_le ((Frac.val_pos_iff hx).mpr hxpos) h)
    obtain ⟨hxlo, hxhi⟩ := ulpExponent_spec hxpos hx
    obtain ⟨hylo, hyhi⟩ := ulpExponent_spec hypos hy
    have hexp : ulpExponent x.num x.den + 23 < ulpExponent y.num y.den + 24 :=
      (zpow_lt_zpow_iff_right₀ (by norm_num)).mp (lt_of_le_of_lt hxlo (lt_of_le_of_lt h hyhi))
    rcases eq_or_lt_of_le (show ulpExponent x.num x.den ≤ ulpExponent y.num y.den by omega) with
      hk | hk
    · rw [val_round hxpos.ne', val_round hypos.ne', hk]
      have hsig := significand_mono hx hy h hk
      exact mul_le_mul_of_nonneg_right (by exact_mod_cast hsig) (zpow_nonneg (by norm_num) _)
    · -- The power of two between the binades separates the two values.
      calc (round x).val ≤ 2 ^ (ulpExponent x.num x.den + 24) := (round_range hxpos hx).2
        _ ≤ 2 ^ (ulpExponent y.num y.den + 23) := zpow_le_zpow_right₀ (by norm_num) (by omega)
        _ ≤ (round y).val := (round_range hypos hy).1

/-! ### Operations -/

/-- One is a value. -/
theorem val_round_one : (round ⟨1, 1⟩).val = 1 := by
  have hround : round ⟨1, 1⟩ = ⟨2 ^ 23, 2 ^ 23⟩ := by decide +kernel
  rw [hround]
  norm_num [Frac.val]

/-- A fraction up to one is rounded to one at most. -/
theorem round_le_one {x : Frac} (hx : 0 < x.den) (h : x.val ≤ 1) : (round x).val ≤ 1 := by
  rw [← val_round_one]
  apply round_mono hx Nat.one_pos
  simpa [Frac.val] using h

/-- A fraction from one on is rounded to one at least. -/
theorem one_le_round {x : Frac} (hx : 0 < x.den) (h : 1 ≤ x.val) : 1 ≤ (round x).val := by
  rw [← val_round_one]
  apply round_mono Nat.one_pos hx
  simpa [Frac.val] using h

/-- Conversion is monotone. -/
theorem ofNat_mono {m n : Nat} (h : m ≤ n) : (ofNat m).val ≤ (ofNat n).val := by
  apply round_mono Nat.one_pos Nat.one_pos
  simpa [Frac.val] using h

/-- A positive integer stays positive. -/
theorem num_ofNat_pos {n : Nat} (h : 0 < n) : 0 < (ofNat n).num := by
  have hone : (1 : ℚ) ≤ (ofNat n).val := by
    rw [← val_round_one]
    exact ofNat_mono h
  exact (Frac.val_pos_iff (den_round_pos _)).mp (lt_of_lt_of_le one_pos hone)

/-- What `div` rounds is the quotient. -/
theorem val_quotient (x y : Frac) :
    Frac.val ⟨x.num * y.den, x.den * y.num⟩ = x.val / y.val := by
  unfold Frac.val
  push_cast
  rw [div_div_div_eq]

/-- What `mul` rounds is the product. -/
theorem val_product (x y : Frac) :
    Frac.val ⟨x.num * y.num, x.den * y.den⟩ = x.val * y.val := by
  unfold Frac.val
  push_cast
  rw [div_mul_div_comm]

/-- Division is monotone in the dividend. -/
theorem div_mono {x y z : Frac} (hx : 0 < x.den) (hy : 0 < y.den) (hz : 0 < z.num)
    (h : x.val ≤ y.val) : (div x z).val ≤ (div y z).val := by
  apply round_mono (Nat.mul_pos hx hz) (Nat.mul_pos hy hz)
  rw [val_quotient, val_quotient]
  exact div_le_div_of_nonneg_right h z.val_nonneg

/-- A quotient of a smaller by a larger value is at most one. -/
theorem div_le_one {x y : Frac} (hx : 0 < x.den) (hy : 0 < y.num) (h : x.val ≤ y.val) :
    (div x y).val ≤ 1 := by
  apply round_le_one (Nat.mul_pos hx hy)
  rw [val_quotient]
  exact div_le_one_of_le₀ h y.val_nonneg

/-- A quotient of a larger by a smaller value is at least one. -/
theorem one_le_div {x y : Frac} (hx : 0 < x.den) (hden : 0 < y.den) (hy : 0 < y.num)
    (h : y.val ≤ x.val) : 1 ≤ (div x y).val := by
  apply one_le_round (Nat.mul_pos hx hy)
  rw [val_quotient, one_le_div₀ ((Frac.val_pos_iff hden).mpr hy)]
  exact h

/-- Multiplication is monotone. -/
theorem mul_mono {x y z : Frac} (hx : 0 < x.den) (hy : 0 < y.den) (hz : 0 < z.den)
    (h : x.val ≤ y.val) : (mul x z).val ≤ (mul y z).val := by
  apply round_mono (Nat.mul_pos hx hz) (Nat.mul_pos hy hz)
  rw [val_product, val_product]
  exact mul_le_mul_of_nonneg_right h z.val_nonneg

end Memlink.Binary32
