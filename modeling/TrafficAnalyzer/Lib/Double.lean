import Mathlib.Algebra.Group.Int.Defs
import Mathlib.Algebra.Group.Nat.Defs

/-!
# Double arithmetic as a parameter

A program that computes with doubles is modelled over a type `R` with the
operations it uses. Integer literals enter through `ofInt`; a decimal literal is
the quotient of two integers, which is also the correctly rounded double. Results
that do not depend on rounding hold for every `R`.
-/

/-- The operations on doubles, with the two comparisons and the cast to `int`. -/
class Double (R : Type) extends Add R, Sub R, Mul R, Div R where
  ofInt : Int → R
  sqrt : R → R
  fabs : R → R
  log2 : R → R
  /-- `x < y`. -/
  lt : R → R → Bool
  /-- `(int)x`: truncation towards zero. -/
  trunc : R → Int

/-- The value of a C `int` after two's complement wrap-around. -/
def wrap32 (n : Int) : Int := (n + 2 ^ 31) % 2 ^ 32 - 2 ^ 31

/-- `n++` on a C `int`. -/
def inc32 (n : Int) : Int := wrap32 (n + 1)

theorem wrap32_of_bounds {n : Int} (h1 : -2 ^ 31 ≤ n) (h2 : n < 2 ^ 31) : wrap32 n = n := by
  unfold wrap32
  omega

theorem inc32_of_bounds {n : Int} (h1 : 0 ≤ n) (h2 : n + 1 < 2 ^ 31) : inc32 n = n + 1 :=
  wrap32_of_bounds (by omega) h2

/-- `difftime(a, b)`; the difference of two calendar times is exact. -/
def difftime (a b : Int) : Int := a - b
