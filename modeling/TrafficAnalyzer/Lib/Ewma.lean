import Mathlib.Algebra.Order.Field.Basic
import Mathlib.Tactic.Linarith
import Mathlib.Tactic.Ring

/-!
# Exponentially weighted mean and variance

A mean and a variance are moved towards each sample by a smoothing factor between 0 and 1, which
may change from sample to sample, or are started again with the sample alone. The second moment
`var + mean ^ 2` is then a weighted mean of squares, so that the variance of samples between `lo`
and `hi` is at most `(hi - mean) * (mean - lo)`.

* `Within.step`: a step keeps the two bounds of the mean and this bound of the variance.
* `Averaged.within`: so does every sequence of samples.
* `Within.le_sq`, `Within.four_mul_le`: what follows for the variance alone.
-/

namespace Ewma

variable {K : Type} [Field K]

/-- The mean and the variance after the sample `x`. -/
def step (alpha : K) (s : K × K) (x : K) : K × K :=
  (s.1 + alpha * (x - s.1), (1 - alpha) * (s.2 + alpha * (x - s.1) * (x - s.1)))

/-- The second moment is averaged like the mean. -/
theorem step_moment (alpha : K) (s : K × K) (x : K) :
    (step alpha s x).2 + (step alpha s x).1 ^ 2 =
      (1 - alpha) * (s.2 + s.1 ^ 2) + alpha * x ^ 2 := by
  unfold step
  ring

theorem step_mean (alpha : K) (s : K × K) (x : K) :
    (step alpha s x).1 = (1 - alpha) * s.1 + alpha * x := by
  unfold step
  ring

variable [LinearOrder K] [IsStrictOrderedRing K]

/-- The mean and the variance `s` of samples between `lo` and `hi`. -/
structure Within (lo hi : K) (s : K × K) : Prop where
  low : lo ≤ s.1
  high : s.1 ≤ hi
  nonneg : 0 ≤ s.2
  spread : s.2 ≤ (hi - s.1) * (s.1 - lo)

/-- `s` comes from the samples `xs`: from one of them alone, and by steps for those behind it. -/
inductive Averaged : List K → K × K → Prop
  | start (xs : List K) (x : K) : Averaged (xs ++ [x]) (x, 0)
  | step {xs : List K} {s : K × K} {alpha : K} (x : K) : 0 ≤ alpha → alpha ≤ 1 → Averaged xs s →
      Averaged (xs ++ [x]) (Ewma.step alpha s x)

section Bounds

variable {lo hi alpha x : K} {s : K × K}

theorem Within.start (hlo : lo ≤ x) (hhi : x ≤ hi) : Within lo hi (x, 0) :=
  ⟨hlo, hhi, le_refl 0, mul_nonneg (sub_nonneg.mpr hhi) (sub_nonneg.mpr hlo)⟩

/-- A mean of two values is between the bounds of both. -/
theorem mean_between {y : K} (h0 : 0 ≤ alpha) (h1 : alpha ≤ 1) (hy : lo ≤ y) (hx : lo ≤ x) :
    lo ≤ (1 - alpha) * y + alpha * x := by
  calc lo = (1 - alpha) * lo + alpha * lo := by ring
    _ ≤ (1 - alpha) * y + alpha * x :=
      add_le_add (mul_le_mul_of_nonneg_left hy (sub_nonneg.mpr h1))
        (mul_le_mul_of_nonneg_left hx h0)

/-- A number between the bounds has its square below the chord over them. -/
theorem sq_le_chord (hlo : lo ≤ x) (hhi : x ≤ hi) : x ^ 2 ≤ (lo + hi) * x - lo * hi := by
  have hpos := mul_nonneg (sub_nonneg.mpr hhi) (sub_nonneg.mpr hlo)
  linarith

theorem step_nonneg (h0 : 0 ≤ alpha) (h1 : alpha ≤ 1) (hs : 0 ≤ s.2) :
    0 ≤ (Ewma.step alpha s x).2 := by
  have hsquare : 0 ≤ alpha * (x - s.1) * (x - s.1) := by
    rw [mul_assoc]
    exact mul_nonneg h0 (mul_self_nonneg _)
  exact mul_nonneg (sub_nonneg.mpr h1) (add_nonneg hs hsquare)

theorem Within.step (h : Within lo hi s) (h0 : 0 ≤ alpha) (h1 : alpha ≤ 1) (hlo : lo ≤ x)
    (hhi : x ≤ hi) : Within lo hi (Ewma.step alpha s x) where
  low := by
    rw [step_mean]
    exact mean_between h0 h1 h.low hlo
  high := by
    have hneg := mean_between h0 h1 (neg_le_neg h.high) (neg_le_neg hhi)
    rw [step_mean]
    linarith
  nonneg := step_nonneg h0 h1 h.nonneg
  spread := by
    -- the second moment stays below the chord, on which the mean moves
    have hold : s.2 + s.1 ^ 2 ≤ (lo + hi) * s.1 - lo * hi := by linarith [h.spread]
    have hmoment : (Ewma.step alpha s x).2 + (Ewma.step alpha s x).1 ^ 2 ≤
        (lo + hi) * (Ewma.step alpha s x).1 - lo * hi := by
      calc (Ewma.step alpha s x).2 + (Ewma.step alpha s x).1 ^ 2
          = (1 - alpha) * (s.2 + s.1 ^ 2) + alpha * x ^ 2 := step_moment alpha s x
        _ ≤ (1 - alpha) * ((lo + hi) * s.1 - lo * hi) + alpha * ((lo + hi) * x - lo * hi) :=
          add_le_add (mul_le_mul_of_nonneg_left hold (sub_nonneg.mpr h1))
            (mul_le_mul_of_nonneg_left (sq_le_chord hlo hhi) h0)
        _ = (lo + hi) * (Ewma.step alpha s x).1 - lo * hi := by
          rw [step_mean]
          ring
    linarith

theorem Averaged.nonneg {xs : List K} (h : Averaged xs s) : 0 ≤ s.2 := by
  induction h with
  | start xs x => exact le_refl 0
  | step x h0 h1 _ ih => exact step_nonneg h0 h1 ih

theorem Averaged.within {xs : List K} (h : Averaged xs s) (hxs : ∀ x ∈ xs, lo ≤ x ∧ x ≤ hi) :
    Within lo hi s := by
  induction h with
  | start xs x =>
    obtain ⟨hlo, hhi⟩ := hxs x List.mem_concat_self
    exact .start hlo hhi
  | step x h0 h1 _ ih =>
    obtain ⟨hlo, hhi⟩ := hxs x List.mem_concat_self
    exact (ih fun y hy => hxs y (List.mem_append_left _ hy)).step h0 h1 hlo hhi

/-- Half the distance of the bounds is the largest deviation. -/
theorem Within.four_mul_le (h : Within lo hi s) : 4 * s.2 ≤ (hi - lo) ^ 2 := by
  have hsquare := sq_nonneg (hi + lo - 2 * s.1)
  linarith [h.spread]

theorem Within.le_sq (h : Within lo hi s) (hlo : 0 ≤ lo) : s.2 ≤ hi ^ 2 := by
  have hmean : 0 ≤ s.1 := le_trans hlo h.low
  calc s.2 ≤ (hi - s.1) * (s.1 - lo) := h.spread
    _ ≤ hi * hi :=
      mul_le_mul (sub_le_self hi hmean) (le_trans (sub_le_self s.1 hlo) h.high)
        (sub_nonneg.mpr h.low) (le_trans hmean h.high)
    _ = hi ^ 2 := (sq hi).symm

end Bounds

end Ewma
