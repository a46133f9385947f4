import Mathlib.Data.Nat.Bitwise
import Mathlib.Order.Bounds.Defs

/-!
# Bit smearing

`n |= n >> 1; n |= n >> 2; n |= n >> 4; …` copies the highest set bit of `n` into all
bits below it. `Smeared k x y` says what the value `y` is after the steps that cover a
distance of `k`; a step doubles `k` (`Smeared.double`), and once `k` bits hold the whole
number the result is one less than a power of two (`Smeared.eq`), the least one above the
number (`isLeast_pow_log2`).
-/

/-- Bit `i` of `y` is set when `x` has a bit set among the `k` bits from `i` on. -/
def Smeared (k x y : Nat) : Prop :=
  ∀ i, y.testBit i = true ↔ ∃ j, j < k ∧ x.testBit (i + j) = true

theorem Smeared.one (x : Nat) : Smeared 1 x x := by
  intro i
  constructor
  · exact fun h => ⟨0, Nat.one_pos, h⟩
  · rintro ⟨j, hj, h⟩
    obtain rfl : j = 0 := by omega
    exact h

/-- `y |= y >> k` doubles the distance. -/
theorem Smeared.double {k x y : Nat} (h : Smeared k x y) : Smeared (k + k) x (y ||| y >>> k) := by
  intro i
  rw [Nat.testBit_or, Nat.testBit_shiftRight, Bool.or_eq_true, h i, h (k + i)]
  constructor
  · rintro (⟨j, hj, hb⟩ | ⟨j, hj, hb⟩)
    · exact ⟨j, by omega, hb⟩
    · exact ⟨k + j, by omega, by rwa [show i + (k + j) = k + i + j by omega]⟩
  · rintro ⟨j, hj, hb⟩
    by_cases hlt : j < k
    · exact .inl ⟨j, hlt, hb⟩
    · exact .inr ⟨j - k, by omega, by rwa [show k + i + (j - k) = i + j by omega]⟩

/-- The smeared value of a number of at most `k` bits. -/
theorem Smeared.eq {k x y : Nat} (h : Smeared k x y) (hx : x < 2 ^ k) (hpos : x ≠ 0) :
    y = 2 ^ (x.log2 + 1) - 1 := by
  refine Nat.eq_of_testBit_eq fun i => ?_
  rw [Nat.testBit_two_pow_sub_one, Bool.eq_iff_iff, h i, decide_eq_true_eq, Nat.lt_succ_iff,
    Nat.le_log2 hpos]
  constructor
  · rintro ⟨j, _, hb⟩
    have hge : 2 ^ (i + j) ≤ x := by
      by_contra hlt
      rw [Nat.testBit_lt_two_pow (Nat.lt_of_not_le hlt)] at hb
      cases hb
    exact Nat.le_trans (Nat.pow_le_pow_right (by decide) (Nat.le_add_right i j)) hge
  · intro hge
    obtain ⟨m, hm, hb⟩ := Nat.exists_ge_and_testBit_of_ge_two_pow hge
    have hmk : m < k := by
      by_contra hle
      rw [Nat.testBit_lt_two_pow (Nat.lt_of_lt_of_le hx
        (Nat.pow_le_pow_right (by decide) (Nat.le_of_not_lt hle)))] at hb
      cases hb
    exact ⟨m - i, by omega, by rwa [show i + (m - i) = m by omega]⟩

/-- The power of two above the highest set bit is the least one above the number. -/
theorem isLeast_pow_log2 {x : Nat} (hpos : x ≠ 0) :
    IsLeast {m | (∃ k, m = 2 ^ k) ∧ x < m} (2 ^ (x.log2 + 1)) := by
  refine ⟨⟨⟨_, rfl⟩, Nat.lt_log2_self⟩, ?_⟩
  rintro m ⟨⟨k, rfl⟩, hlt⟩
  exact Nat.pow_le_pow_right (by decide) ((Nat.log2_lt hpos).mpr hlt)
