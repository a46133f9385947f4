import TrafficAnalyzer.Cjson.Parse

/-!
# Numbers as JSON texts (`print_number`)

`print_number` tries `%d`, then 15 significant digits, and takes 17 when `compare_double` finds
the 15 digits too far off.

* `numberText_reread`: the text of a finite number fits into `number_buffer` and is read to its
  end; the value is the same one, unless `compare_double` has accepted 15 digits.
-/

namespace TrafficAnalyzer.Cjson

open LineProtocol Printf

def INT_MAX : Int := 2 ^ 31 - 1
def INT_MIN : Int := -2 ^ 31

/-- `-x`. -/
def negate : Binary64 → Binary64
  | .finite neg mant scale => .finite (!neg) mant scale
  | .inf neg => .inf (!neg)
  | .nan neg => .nan (!neg)

/-- `item->valueint`, as `parse_number` and `cJSON_CreateNumber` set it. -/
def valueint (x : Binary64) : Int :=
  if x.atLeast INT_MAX then INT_MAX
  else if (negate x).atLeast (-INT_MIN) then INT_MIN
  else x.toLongLong

/-- `d == (double)n`. -/
def equalsInt (d : Binary64) (n : Int) : Bool := d.atLeast n && (negate d).atLeast (-n)

/-- `x <= y` for values that are not negative. -/
def magnitudeLe : Binary64 → Binary64 → Bool
  | .finite _ mant scale, .finite _ mant' scale' =>
    mant.val * 2 ^ scale.val ≤ mant'.val * 2 ^ scale'.val
  | .finite _ _ _, .inf _ => true
  | .inf _, .inf _ => true
  | _, _ => false

/-- The value in units of `2 ^ -1074`. -/
def units (neg : Bool) (mant scale : Nat) : Int :=
  if neg then -(mant * 2 ^ scale : Nat) else (mant * 2 ^ scale : Nat)

/-- `compare_double`: the difference, rounded, is not above `maxVal * DBL_EPSILON`. An infinity
compares equal to every finite value, both sides being infinite then. -/
def compareDouble : Binary64 → Binary64 → Bool
  | .finite neg mant scale, .finite neg' mant' scale' =>
    let a := units neg mant.val scale.val
    let b := units neg' mant'.val scale'.val
    magnitudeLe (.nearest false (a - b).natAbs 1)
      (.nearest false (max a.natAbs b.natAbs) (2 ^ 52))
  | .inf neg, .inf neg' => neg != neg'
  | .inf _, .finite _ _ _ => true
  | .finite _ _ _, .inf _ => true
  | _, _ => false

/-- `sscanf(text, "%lg", &test)`: what is left of `test` where it answers 1. -/
def sscanfLg (text : Bytes) : Option Binary64 := (strtod text).map (·.1)

/-- The text that `print_number` writes into `number_buffer`. -/
def numberText (d : Binary64) : Bytes :=
  if !d.isFinite then ascii "null"
  else if equalsInt d (valueint d) then decimalInt (valueint d)
  else if (sscanfLg (formatG 15 d)).any fun test => compareDouble test d then formatG 15 d
  else formatG 17 d

example : numberText (.ofInt (-40)) = ascii "-40" := by decide +kernel

/-! ## Which text it is -/

/-- The three ways to print a finite number. -/
theorem numberText_cases {d : Binary64} (hd : d.isFinite = true) :
    (equalsInt d (valueint d) = true ∧ numberText d = decimalInt (valueint d)) ∨
      (∃ test, sscanfLg (formatG 15 d) = some test ∧ compareDouble test d = true ∧
        numberText d = formatG 15 d) ∨
      numberText d = formatG 17 d := by
  unfold numberText
  rw [hd, Bool.not_true, if_neg Bool.false_ne_true]
  split
  · next hint => exact .inl ⟨hint, rfl⟩
  split
  · next htest =>
    obtain ⟨test, hsome, hcompare⟩ := (Option.any_eq_true _ _).mp htest
    exact .inr (.inl ⟨test, hsome, hcompare, rfl⟩)
  · exact .inr (.inr rfl)

theorem value_finite (neg : Bool) (mant : Fin (2 ^ 53)) (scale : Fin 2046) :
    (Binary64.finite neg mant scale).value =
      some ((units neg mant.val scale.val : ℚ) / (2 ^ 1074 : Nat)) := by
  rw [Binary64.value, units]
  generalize mant.val * 2 ^ scale.val = v
  generalize ((2 ^ 1074 : Nat) : ℚ) = t
  cases neg
  · simp
  · simp

/-- The comparisons with integers, in units of `2 ^ -1074`. -/
theorem atLeast_finite (neg : Bool) (mant : Fin (2 ^ 53)) (scale : Fin 2046) (n : Int) :
    ((Binary64.finite neg mant scale).atLeast n = true ↔
        n * 2 ^ 1074 ≤ units neg mant.val scale.val) ∧
      ((negate (.finite neg mant scale)).atLeast n = true ↔
        n * 2 ^ 1074 ≤ -units neg mant.val scale.val) := by
  simp only [negate, Binary64.atLeast, decide_eq_true_eq, units]
  generalize ((mant.val * 2 ^ scale.val : Nat) : Int) = v
  generalize (2 : Int) ^ 1074 = t
  cases neg
  · simp
  · simp

theorem cast_two_pow (k : Nat) : (((2 : Int) ^ k : Int) : ℚ) = ((2 ^ k : Nat) : ℚ) := by
  push_cast
  rfl

/-- A double that equals an integer. -/
theorem equalsInt_iff (neg : Bool) (mant : Fin (2 ^ 53)) (scale : Fin 2046) (n : Int) :
    equalsInt (.finite neg mant scale) n = true ↔ units neg mant.val scale.val = n * 2 ^ 1074 := by
  obtain ⟨hlow, -⟩ := atLeast_finite neg mant scale n
  obtain ⟨-, hhigh⟩ := atLeast_finite neg mant scale (-n)
  rw [equalsInt, Bool.and_eq_true, hlow, hhigh, Int.neg_mul, Int.neg_le_neg_iff]
  exact ⟨fun h => Int.le_antisymm h.2 h.1, fun h => ⟨h.ge, h.le⟩⟩

theorem value_of_equalsInt {d : Binary64} {n : Int} (h : equalsInt d n = true) :
    d.value = some (n : ℚ) := by
  cases d with
  | inf neg => cases neg <;> cases h
  | nan neg => cases h
  | finite neg mant scale =>
    have hpos : ((2 ^ 1074 : Nat) : ℚ) ≠ 0 := Nat.cast_ne_zero.mpr (pow_pos Nat.two_pos 1074).ne'
    rw [value_finite, (equalsInt_iff neg mant scale n).mp h, Int.cast_mul, cast_two_pow,
      mul_div_cancel_right₀ _ hpos]

/-- An integer that `%d` prints is in the range of `int`. -/
theorem valueint_bounds {d : Binary64} (h : equalsInt d (valueint d) = true) :
    INT_MIN ≤ valueint d ∧ valueint d ≤ INT_MAX := by
  cases d with
  | inf neg => cases neg <;> cases h
  | nan neg => cases h
  | finite neg mant scale =>
    have hvalue := (equalsInt_iff neg mant scale _).mp h
    have hpos : (0 : Int) < 2 ^ 1074 := pow_pos (by decide) 1074
    have hrange : INT_MIN ≤ INT_MAX := by decide
    generalize hn : valueint (.finite neg mant scale) = n at hvalue ⊢
    unfold valueint at hn
    split at hn
    · exact hn ▸ ⟨hrange, le_rfl⟩
    next hmax =>
    split at hn
    · exact hn ▸ ⟨le_rfl, hrange⟩
    next hmin =>
    rw [(atLeast_finite neg mant scale INT_MAX).1, hvalue, Int.mul_le_mul_iff_of_pos_right hpos,
      not_le] at hmax
    rw [(atLeast_finite neg mant scale (-INT_MIN)).2, hvalue, Int.neg_mul, Int.neg_le_neg_iff,
      Int.mul_le_mul_iff_of_pos_right hpos, not_le] at hmin
    exact ⟨hmin.le, hmax.le⟩

/-! ## Integers -/

theorem units_ofInt {n : Int} (h : n.natAbs < 2 ^ 53) :
    units (n < 0) (Fin.ofNat (2 ^ 53) n.natAbs).val (1074 : Fin 2046).val = n * 2 ^ 1074 := by
  have hmant : (Fin.ofNat (2 ^ 53) n.natAbs).val = n.natAbs := Nat.mod_eq_of_lt h
  have hscale : (1074 : Fin 2046).val = 1074 := rfl
  rw [units, hmant, hscale]
  generalize 1074 = k
  push_cast
  by_cases hneg : n < 0
  · rw [if_pos (decide_eq_true hneg), abs_of_neg hneg, Int.neg_mul, neg_neg]
  · rw [if_neg (by simpa using hneg), abs_of_nonneg (not_lt.mp hneg)]

theorem value_ofInt {n : Int} (h : n.natAbs < 2 ^ 53) : (Binary64.ofInt n).value = some (n : ℚ) :=
  value_of_equalsInt ((equalsInt_iff _ _ _ _).mpr (units_ofInt h))

theorem toLongLong_ofInt {n : Int} (h : n.natAbs < 2 ^ 53) : (Binary64.ofInt n).toLongLong = n := by
  have hmant : (Fin.ofNat (2 ^ 53) n.natAbs).val = n.natAbs := Nat.mod_eq_of_lt h
  have hscale : (1074 : Fin 2046).val = 1074 := rfl
  have hvalue : (if decide (n < 0) = true then -(n.natAbs : Int) else (n.natAbs : Int)) = n := by
    by_cases hneg : n < 0
    · rw [if_pos (decide_eq_true hneg)]
      omega
    · rw [if_neg (by simpa using hneg)]
      omega
  rw [Binary64.ofInt, Binary64.toLongLong, hmant, hscale,
    Nat.mul_div_cancel _ (pow_pos Nat.two_pos 1074)]
  rw [hvalue]
  exact if_pos (by omega)

/-- An `int` has itself as `valueint`. -/
theorem valueint_ofInt {n : Int} (hlow : INT_MIN ≤ n) (hhigh : n ≤ INT_MAX) :
    valueint (.ofInt n) = n := by
  have hsmall : n.natAbs < 2 ^ 53 := by
    unfold INT_MIN at hlow
    unfold INT_MAX at hhigh
    omega
  have hpos : (0 : Int) < 2 ^ 1074 := pow_pos (by decide) 1074
  have hmax := (atLeast_finite (n < 0) (Fin.ofNat (2 ^ 53) n.natAbs) 1074 INT_MAX).1
  have hmin := (atLeast_finite (n < 0) (Fin.ofNat (2 ^ 53) n.natAbs) 1074 (-INT_MIN)).2
  rw [units_ofInt hsmall, Int.mul_le_mul_iff_of_pos_right hpos] at hmax
  rw [units_ofInt hsmall, Int.neg_mul, Int.neg_le_neg_iff,
    Int.mul_le_mul_iff_of_pos_right hpos] at hmin
  unfold valueint
  split
  · next hge => exact Int.le_antisymm (hmax.mp hge) hhigh
  split
  · next hle => exact Int.le_antisymm hlow (hmin.mp hle)
  · exact toLongLong_ofInt hsmall

/-- An `int` is printed as by `%d`. -/
theorem numberText_ofInt {n : Int} (hlow : INT_MIN ≤ n) (hhigh : n ≤ INT_MAX) :
    numberText (.ofInt n) = decimalInt n := by
  have hsmall : n.natAbs < 2 ^ 53 := by
    unfold INT_MIN at hlow
    unfold INT_MAX at hhigh
    omega
  have hequal : equalsInt (.ofInt n) n = true :=
    (equalsInt_iff _ _ _ _).mpr (units_ofInt hsmall)
  have hfinite : (Binary64.ofInt n).isFinite = true := rfl
  rw [numberText, hfinite, valueint_ofInt hlow hhigh, hequal]
  rfl

/-! ## What `number_buffer` holds -/

/-- The text of a number fits into `number_buffer`, beside its terminator. -/
theorem length_numberText_le (d : Binary64) : (numberText d).length ≤ 25 := by
  unfold numberText
  split
  · decide
  split
  · next hint =>
    obtain ⟨hlow, hhigh⟩ := valueint_bounds hint
    have hdigits : (decimal (valueint d).natAbs).length ≤ 10 := by
      refine length_decimal_le (by decide) ?_
      unfold INT_MIN at hlow
      unfold INT_MAX at hhigh
      omega
    rw [decimalInt]
    cases decide (valueint d < 0)
    · exact hdigits.trans (by decide)
    · exact (Nat.succ_le_succ hdigits).trans (by decide)
  split
  · exact (length_formatG_le (by decide) d).trans (by decide)
  · exact (length_formatG_le (by decide) d).trans (by decide)

/-- A number is printed so that `strtod` reads the text to its end. The value is the same one, or
it is the value of 15 digits that `compare_double` has accepted. -/
theorem numberText_reread {d : Binary64} (hd : d.isFinite = true) :
    (numberText d).length ≤ 25 ∧ ∃ y, strtod (numberText d) = some (y, []) ∧
      (y.value = d.value ∨ numberText d = formatG 15 d ∧ compareDouble y d = true) := by
  refine ⟨length_numberText_le d, ?_⟩
  rcases numberText_cases hd with ⟨hint, htext⟩ | ⟨test, htest, hcompare, htext⟩ | htext
  · have hsmall : (valueint d).natAbs < 2 ^ 53 := by
      obtain ⟨hlow, hhigh⟩ := valueint_bounds hint
      unfold INT_MIN at hlow
      unfold INT_MAX at hhigh
      omega
    rw [htext]
    refine ⟨_, strtod_decimalInt hsmall, .inl ?_⟩
    rw [value_ofInt hsmall, value_of_equalsInt hint]
  · cases d with
    | inf neg => cases hd
    | nan neg => cases hd
    | finite neg mant scale =>
      obtain ⟨m, e, -, hstrtod, -⟩ :=
        strtod_general (p := 15) (Nat.succ_pos 14) neg (mant.val * 2 ^ scale.val) (2 ^ 1074)
      rw [sscanfLg, formatG, hstrtod] at htest
      obtain rfl := Option.some.inj htest
      rw [htext]
      exact ⟨_, hstrtod, .inr ⟨rfl, hcompare⟩⟩
  · obtain ⟨y, hy, hvalue⟩ := strtod_formatG hd
    rw [htext]
    exact ⟨y, hy, .inl hvalue⟩

/-- `-0.125`, which `valueint` does not hold. -/
theorem numberText_reread_eighth :
    (numberText (.finite true 1 1071)).length ≤ 25 ∧
      ∃ y, strtod (numberText (.finite true 1 1071)) = some (y, []) ∧
        (y.value = Binary64.value (.finite true 1 1071) ∨
          numberText (.finite true 1 1071) = formatG 15 (.finite true 1 1071) ∧
            compareDouble y (.finite true 1 1071) = true) :=
  numberText_reread rfl

end TrafficAnalyzer.Cjson
