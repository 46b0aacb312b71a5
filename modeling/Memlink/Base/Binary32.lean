import Mathlib.Algebra.Group.Nat.Defs

/-!
# Nonnegative binary32 arithmetic

Single-precision values that are zero or normal, as fractions of naturals. A result is
rounded to 24 significant bits, to nearest with ties to even, and the exponent is
unbounded: the operands here stay far inside the normal range, so neither overflow nor
subnormal rounding takes place. Every function computes by natural-number arithmetic.
-/

namespace Memlink.Binary32

/-- A nonnegative rational `num / den`. -/
structure Frac where
  num : Nat
  den : Nat
  deriving DecidableEq, Repr

/-- The integer nearest to `n / d`, ties to even. -/
def roundDiv (n d : Nat) : Nat :=
  let q := n / d
  let r := n % d
  if 2 * r < d then q
  else if d < 2 * r then q + 1
  else if q % 2 = 0 then q else q + 1

/-- The exponent of the last significand bit: `2^23 ≤ n / (d * 2^ulp) < 2^24`. -/
def ulpExponent (n d : Nat) : Int :=
  let k : Int := (n.log2 : Int) - d.log2 - 23
  if n * 2 ^ (-k).toNat < 2 ^ 23 * (d * 2 ^ k.toNat) then k - 1 else k

/-- Round a positive denominator fraction to 24 significant bits. -/
def round (x : Frac) : Frac :=
  if x.num = 0 then ⟨0, 1⟩
  else
    let k := ulpExponent x.num x.den
    ⟨roundDiv (x.num * 2 ^ (-k).toNat) (x.den * 2 ^ k.toNat) * 2 ^ k.toNat, 2 ^ (-k).toNat⟩

/-- Conversion of an unsigned integer, `(float)n`. -/
def ofNat (n : Nat) : Frac := round ⟨n, 1⟩

/-- Correctly rounded division. -/
def div (x y : Frac) : Frac := round ⟨x.num * y.den, x.den * y.num⟩

/-- Correctly rounded multiplication. -/
def mul (x y : Frac) : Frac := round ⟨x.num * y.num, x.den * y.den⟩

/-- Exact comparison. -/
def lt (x y : Frac) : Bool := decide (x.num * y.den < y.num * x.den)

end Memlink.Binary32
