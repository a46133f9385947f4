import Mathlib.Analysis.SpecialFunctions.Log.Base
import Mathlib.Analysis.SpecialFunctions.Pow.Real
import TrafficAnalyzer.Lib.Double

/-!
# Exact real arithmetic

The real numbers as a `Double`: no rounding, no overflow. Comparisons are decided
classically.
-/

noncomputable section

open scoped Classical in
instance : Double ℝ where
  ofInt n := n
  sqrt := Real.sqrt
  fabs x := |x|
  log2 := Real.logb 2
  lt x y := decide (x < y)
  trunc x := if 0 ≤ x then ⌊x⌋ else ⌈x⌉

end
