import Mathlib.Algebra.Order.Floor.Ring
import Mathlib.Data.Nat.Log
import Mathlib.Tactic.Linarith
import Mathlib.Tactic.Positivity
import TrafficAnalyzer.Lib.ReadDecimal

/-!
# Doubles read from decimal texts

`strtod` on decimal texts: the longest prefix that is a number, rounded to the nearest double, a
tie to the even one. White space, hexadecimal numbers and the names of the infinities and NaNs
are left out.

* `strtod_of_readDecimal`: a decimal number is read to its end and rounded.
* `nearest_value`: what is closer to a double than `2 ^ -54`, relatively, is rounded to it.
* `strtod_decimalInt`: an `int` is read back from its decimal text.
* `strtod_formatG`: 17 significant digits determine a double.
* `length_formatG_le`: how long the text of `%.pg` can be.
-/

namespace Binary64

-- the ranges of the two fields of `finite`
local instance mantNeZero : NeZero (2 ^ 53) := inferInstance

local instance scaleNeZero : NeZero 2046 := inferInstance

/-- `n / d`, in units of `2 ^ -1074`, rounded to the nearest double. -/
def nearest (neg : Bool) (n d : Nat) : Binary64 :=
  let scale := Nat.log2 (n / d) - 52
  let mant := Printf.roundDiv n (d * 2 ^ scale)
  -- rounding may carry into one bit more
  let (mant, scale) := if mant = 2 ^ 53 then (2 ^ 52, scale + 1) else (mant, scale)
  if scale < 2046 then finite neg (Fin.ofNat (2 ^ 53) mant) (Fin.ofNat 2046 scale) else inf neg

/-- `n / d` rounded to the nearest double. Of the representations of a value, a whole number
below `2 ^ 53` has that of `ofNat`. -/
def ofQuotient (neg : Bool) (n d : Nat) : Binary64 :=
  if d ∣ n ∧ n / d < 2 ^ 53 then finite neg (Fin.ofNat (2 ^ 53) (n / d)) 1074
  else nearest neg (n * 2 ^ 1074) d

/-- An integer below `2 ^ 53` in magnitude as a double. -/
def ofInt (n : Int) : Binary64 := finite (n < 0) (Fin.ofNat (2 ^ 53) n.natAbs) 1074

theorem ofQuotient_one {neg : Bool} {n : Nat} (hn : n < 2 ^ 53) :
    ofQuotient neg (n * 1) 1 = finite neg (Fin.ofNat (2 ^ 53) n) 1074 := by
  rw [ofQuotient, Nat.mul_one, Nat.div_one]
  exact if_pos ⟨Nat.one_dvd n, hn⟩

end Binary64

namespace Printf

open LineProtocol CText

/-- The digits before and behind the point, and what follows them. -/
def scanMantissa (s : Bytes) : Bytes × Bytes × Bytes :=
  match s.dropWhile isDigit with
  | 46 :: t => (s.takeWhile isDigit, t.takeWhile isDigit, t.dropWhile isDigit)
  | t => (s.takeWhile isDigit, [], t)

/-- The exponent, and what follows it. An `e` without digits is not an exponent. -/
def scanExponent (s : Bytes) : Int × Bytes :=
  match s with
  | [] => (0, [])
  | c :: t =>
    let (minus, u) := signOf t
    let ds := u.takeWhile isDigit
    if (c = 101 ∨ c = 69) ∧ ds ≠ [] then
      (if minus then -digitsValue ds else digitsValue ds, u.dropWhile isDigit)
    else (0, c :: t)

/-- `strtod`: the number at the start of a text, and the text behind it. -/
def strtod (s : Bytes) : Option (Binary64 × Bytes) :=
  let (minus, t) := signOf s
  let (ds, fs, u) := scanMantissa t
  if ds = [] ∧ fs = [] then none
  else
    let (x, rest) := scanExponent u
    let e := x - fs.length
    some (.ofQuotient minus (digitsValue (ds ++ fs) * 10 ^ e.toNat) (10 ^ (-e).toNat), rest)

example : strtod (ascii "-12.50e-1,") = some (.finite true (5 * 2 ^ 50) 1022, ascii ",") := by
  decide +kernel

/-! ## The prefix that is read -/

theorem scanExponent_of_exponentValue {s : Bytes} {x : Int} (h : exponentValue s = some x) :
    scanExponent s = (x, []) := by
  have hdigits : ∀ t : Bytes, isDigits t = true →
      t ≠ [] ∧ t.takeWhile isDigit = t ∧ t.dropWhile isDigit = [] := by
    intro t ht
    obtain ⟨hne, hall⟩ : t ≠ [] ∧ ∀ c ∈ t, isDigit c = true := by simpa [isDigits] using ht
    exact ⟨hne, List.takeWhile_eq_self_iff.mpr hall, List.dropWhile_eq_nil_iff.mpr hall⟩
  unfold exponentValue at h
  split at h
  · cases h
    rfl
  · next t =>
    obtain ⟨ht, hx⟩ := Option.ite_none_right_eq_some.mp h
    obtain rfl := Option.some.inj hx
    obtain ⟨hne, htake, hdrop⟩ := hdigits t ht
    simp [scanExponent, signOf, htake, hdrop, hne]
  · next t =>
    obtain ⟨ht, hx⟩ := Option.ite_none_right_eq_some.mp h
    obtain rfl := Option.some.inj hx
    obtain ⟨hne, htake, hdrop⟩ := hdigits t ht
    simp [scanExponent, signOf, htake, hdrop, hne]
  · next t hplus hminus =>
    obtain ⟨ht, hx⟩ := Option.ite_none_right_eq_some.mp h
    obtain rfl := Option.some.inj hx
    obtain ⟨hne, htake, hdrop⟩ := hdigits t ht
    have hsign : signOf t = (false, t) := by
      unfold signOf
      split
      · exact absurd rfl (hminus _)
      · exact absurd rfl (hplus _)
      · rfl
    simp [scanExponent, hsign, htake, hdrop, hne]
  · cases h

theorem signOf_eq {s : Bytes} (h : (dropMinus s).takeWhile isDigit ≠ []) :
    signOf s = (decide (s.head? = some 45), dropMinus s) := by
  unfold dropMinus at h ⊢
  unfold signOf
  split
  · rfl
  · next t => exact absurd rfl h
  · next t hminus hplus =>
    split
    · exact absurd rfl (hminus _)
    · next hs =>
      have hhead : s.head? ≠ some 45 := by
        intro hc
        obtain ⟨u, rfl⟩ := List.head?_eq_some_iff.mp hc
        exact hs u rfl
      rw [decide_eq_false hhead]

/-- A text that `readDecimal` reads is read to its end. -/
theorem scanMantissa_of_readTail {s fs : Bytes} {x : Int}
    (h : readTail (s.dropWhile isDigit) = some (fs, x)) :
    ∃ u, scanMantissa s = (s.takeWhile isDigit, fs, u) ∧ scanExponent u = (x, []) := by
  unfold readTail at h
  unfold scanMantissa
  split at h
  · next t hs =>
    obtain ⟨e, he, hfs⟩ := Option.map_eq_some_iff.mp h
    obtain ⟨rfl, rfl⟩ := Prod.mk.inj hfs
    rw [hs]
    exact ⟨_, rfl, scanExponent_of_exponentValue he⟩
  · next hs =>
    obtain ⟨e, he, hfs⟩ := Option.map_eq_some_iff.mp h
    obtain ⟨rfl, rfl⟩ := Prod.mk.inj hfs
    refine ⟨s.dropWhile isDigit, ?_, scanExponent_of_exponentValue he⟩
    split
    · next t ht => exact absurd ht (hs t)
    · rfl

/-- The value of a numeral as a quotient. -/
theorem quotient_value (ds fs : Bytes) (x : Int) :
    ((digitsValue (ds ++ fs) * 10 ^ (x - fs.length).toNat : Nat) : ℚ) /
        (10 ^ (-(x - fs.length)).toNat : Nat) =
      (digitsValue ds + fractionValue fs) * 10 ^ x := by
  have hten : (10 : ℚ) ≠ 0 := by norm_num
  have hpow : ∀ e : Int, (10 : ℚ) ^ e.toNat / 10 ^ (-e).toNat = 10 ^ e := by
    intro e
    rw [← zpow_natCast, ← zpow_natCast, ← zpow_sub₀ hten]
    congr 1
    omega
  have hlen : (10 : ℚ) ^ fs.length ≠ 0 := pow_ne_zero _ hten
  rw [digitsValue_append, fractionValue]
  push_cast
  rw [mul_div_assoc, hpow, zpow_sub₀ hten, zpow_natCast]
  field_simp

/-- A decimal number is read to its end, and its value is rounded. -/
theorem strtod_of_readDecimal {s : Bytes} {r : ℚ} (h : readDecimal s = some r) :
    ∃ n d, 0 < d ∧
      strtod s = some (.ofQuotient (decide (s.head? = some 45)) n d, []) ∧
      r = (if s.head? = some 45 then -1 else 1) * ((n : ℚ) / d) := by
  unfold readDecimal at h
  dsimp only at h
  obtain ⟨hne, h⟩ := Option.ite_none_left_eq_some.mp h
  obtain ⟨⟨fs, x⟩, htail, hr⟩ := Option.map_eq_some_iff.mp h
  obtain ⟨u, hmant, hexp⟩ := scanMantissa_of_readTail htail
  refine ⟨digitsValue ((dropMinus s).takeWhile isDigit ++ fs) * 10 ^ (x - fs.length).toNat,
    10 ^ (-(x - fs.length)).toNat, Nat.pow_pos (Nat.succ_pos 9), ?_, ?_⟩
  · rw [strtod, signOf_eq hne]
    dsimp only
    rw [hmant, if_neg fun hnil => hne hnil.1, hexp]
  · rw [← hr, quotient_value]

theorem length_signOf_le (s : Bytes) : (signOf s).2.length ≤ s.length := by
  unfold signOf
  split <;> simp

theorem length_scanExponent_le (s : Bytes) : (scanExponent s).2.length ≤ s.length := by
  unfold scanExponent
  split
  · exact le_rfl
  · next c t =>
    dsimp only
    split
    · exact ((List.dropWhile_suffix _).length_le.trans (length_signOf_le t)).trans (Nat.le_succ _)
    · exact le_rfl

theorem length_scanMantissa_lt {s : Bytes}
    (h : ¬((scanMantissa s).1 = [] ∧ (scanMantissa s).2.1 = [])) :
    (scanMantissa s).2.2.length < s.length := by
  have hsplit := congrArg List.length (List.takeWhile_append_dropWhile (p := isDigit) (l := s))
  rw [List.length_append] at hsplit
  revert h
  unfold scanMantissa
  split
  · next t ht =>
    intro _
    have hle := (List.dropWhile_suffix isDigit (l := t)).length_le
    rw [ht, List.length_cons] at hsplit
    dsimp only
    omega
  · intro h
    have hpos : 0 < (s.takeWhile isDigit).length :=
      List.length_pos_iff.mpr fun hnil => h ⟨hnil, rfl⟩
    dsimp only
    omega

/-- A number has at least one byte. -/
theorem length_strtod_lt {s rest : Bytes} {x : Binary64} (h : strtod s = some (x, rest)) :
    rest.length < s.length := by
  unfold strtod at h
  dsimp only at h
  obtain ⟨hdigits, h⟩ := Option.ite_none_left_eq_some.mp h
  obtain ⟨-, rfl⟩ := Prod.mk.inj (Option.some.inj h)
  exact (length_scanExponent_le _).trans_lt
    ((length_scanMantissa_lt hdigits).trans_le (length_signOf_le s))

/-- The text of `%d` is read exactly. -/
theorem strtod_decimalInt {n : Int} (hn : n.natAbs < 2 ^ 53) :
    strtod (decimalInt n) = some (.ofInt n, []) := by
  obtain ⟨hne, hall⟩ : decimal n.natAbs ≠ [] ∧ ∀ c ∈ decimal n.natAbs, isDigit c = true := by
    simpa [isDigits] using decimal_digits n.natAbs
  have htake : (decimal n.natAbs).takeWhile isDigit = decimal n.natAbs :=
    List.takeWhile_eq_self_iff.mpr hall
  have hdrop : (decimal n.natAbs).dropWhile isDigit = [] := List.dropWhile_eq_nil_iff.mpr hall
  have hhead := head_digits (decimal_digits n.natAbs) []
  rw [List.append_nil] at hhead
  have hminus : dropMinus (decimalInt n) = decimal n.natAbs := dropMinus_signed _ hhead
  have hneg : (decimalInt n).head? = some 45 ↔ n < 0 := by
    rw [decimalInt]
    by_cases h : n < 0
    · simp [signed, h]
    · simp [signed, h, hhead]
  have hmant : scanMantissa (decimal n.natAbs) = (decimal n.natAbs, [], []) := by
    rw [scanMantissa, hdrop, htake]
  rw [strtod, signOf_eq (by rwa [hminus, htake]), hminus, decide_eq_decide.mpr hneg]
  dsimp only
  rw [hmant]
  dsimp only
  rw [if_neg fun hnil => hne hnil.1, List.append_nil, digitsValue_decimal]
  exact congrArg (fun x => some (x, [])) (Binary64.ofQuotient_one hn)

end Printf

/-! ## Rounding -/

namespace Printf

/-- A quotient less than one half away from an integer is rounded to it. -/
theorem roundDiv_eq {n d m : Nat} (hlow : 2 * (m * d) < 2 * n + d) (hhigh : 2 * n < 2 * (m * d) + d) :
    roundDiv n d = m := by
  have hd : 0 < d := by omega
  have hsplit := Nat.div_add_mod n d
  have hlt := Nat.mod_lt n hd
  unfold roundDiv
  dsimp only
  generalize hr : n % d = r at *
  generalize hq : n / d = q at *
  rw [Nat.mul_comm d q] at hsplit
  rcases Nat.lt_trichotomy q m with hqm | rfl | hqm
  · -- the quotient lies below, and the remainder takes it up
    have hle : (q + 1) * d ≤ m * d := Nat.mul_le_mul_right d hqm
    rw [Nat.succ_mul] at hle
    have hnext : m * d < (q + 2) * d := by
      rw [Nat.add_mul]
      omega
    have hm : m = q + 1 := by
      have := Nat.lt_of_mul_lt_mul_right hnext
      omega
    have hup : m * d = q * d + d := by rw [hm, Nat.succ_mul]
    rw [if_neg (by omega), hm]
  · rw [if_pos (.inl (by omega))]
  · have hle : (m + 1) * d ≤ q * d := Nat.mul_le_mul_right d hqm
    rw [Nat.succ_mul] at hle
    omega

end Printf

namespace Binary64

open Printf

/-- A double without leading zero bits. -/
theorem exists_normal (scale : Nat) {mant : Nat} (hm : mant < 2 ^ 53) :
    ∃ m k, mant * 2 ^ scale = m * 2 ^ k ∧ m < 2 ^ 53 ∧ k ≤ scale ∧ (k = 0 ∨ 2 ^ 52 ≤ m) := by
  induction scale generalizing mant with
  | zero => exact ⟨mant, 0, rfl, hm, le_rfl, .inl rfl⟩
  | succ scale ih =>
    rcases Nat.lt_or_ge mant (2 ^ 52) with hsmall | hbig
    · obtain ⟨m, k, heq, hlt, hk, hnorm⟩ := ih (show mant * 2 < 2 ^ 53 by omega)
      exact ⟨m, k, by rw [← heq, pow_succ', Nat.mul_assoc], hlt, Nat.le_succ_of_le hk, hnorm⟩
    · exact ⟨mant, scale + 1, rfl, hm, le_rfl, .inr hbig⟩

/-- What is rounded without a carry. -/
theorem nearest_eq {neg : Bool} {n d m k : Nat} (hlog : Nat.log2 (n / d) - 52 = k)
    (hround : roundDiv n (d * 2 ^ k) = m) (hm : m < 2 ^ 53) (hk : k < 2046) :
    nearest neg n d = finite neg (Fin.ofNat (2 ^ 53) m) (Fin.ofNat 2046 k) := by
  rw [nearest, hlog, hround, if_neg hm.ne]
  exact if_pos hk

/-- What is rounded up to the next power of two. -/
theorem nearest_eq_carry {neg : Bool} {n d k : Nat} (hlog : Nat.log2 (n / d) - 52 = k)
    (hround : roundDiv n (d * 2 ^ k) = 2 ^ 53) (hk : k + 1 < 2046) :
    nearest neg n d = finite neg (Fin.ofNat (2 ^ 53) (2 ^ 52)) (Fin.ofNat 2046 (k + 1)) := by
  rw [nearest, hlog, hround, if_pos rfl]
  exact if_pos hk

theorem value_ofNat_mant {neg : Bool} {m k : Nat} (hm : m < 2 ^ 53) (hk : k < 2046) :
    (finite neg (Fin.ofNat (2 ^ 53) m) (Fin.ofNat 2046 k)).value =
      some ((if neg then -1 else 1 : ℚ) * (m * 2 ^ k : Nat) / (2 ^ 1074 : Nat)) := by
  have hmant : (Fin.ofNat (2 ^ 53) m).val = m := Nat.mod_eq_of_lt hm
  have hscale : (Fin.ofNat 2046 k).val = k := Nat.mod_eq_of_lt hk
  rw [value, hmant, hscale]

/-- Just below the least mantissa the rounding carries. -/
theorem roundDiv_below {n v : Nat} (hlow : 2 ^ 52 * (2 * v) * 2 ^ 60 ≤ n * 2 ^ 60 + 2 ^ 52 * (2 * v) * 63)
    (hless : n < 2 ^ 52 * (2 * v)) : roundDiv n v = 2 ^ 53 :=
  roundDiv_eq (by omega) (by omega)

/-- What is closer to a double than `2 ^ -54`, relatively, is rounded to it. -/
theorem nearest_value (neg : Bool) {n d mant scale : Nat} (hd : 0 < d) (hmant : mant < 2 ^ 53)
    (hscale : scale < 2046)
    (hlow : mant * 2 ^ scale * d * 2 ^ 60 ≤ n * 2 ^ 60 + mant * 2 ^ scale * d * 63)
    (hhigh : n * 2 ^ 60 ≤ mant * 2 ^ scale * d * (2 ^ 60 + 63)) :
    (nearest neg n d).value =
      some ((if neg then -1 else 1 : ℚ) * (mant * 2 ^ scale : Nat) / (2 ^ 1074 : Nat)) := by
  obtain ⟨m, k, hnormal, hm, hk, hbits⟩ := exists_normal scale hmant
  rw [hnormal] at hlow hhigh ⊢
  -- the unit of the last bit, as a multiple of the denominator
  generalize hu : 2 ^ k * d = u
  have hpos : 0 < u := by
    rw [← hu]
    exact Nat.mul_pos (Nat.two_pow_pos k) hd
  have hvalue : m * 2 ^ k * d = m * u := by rw [Nat.mul_assoc, hu]
  rw [hvalue] at hlow hhigh
  have htop : m * u ≤ (2 ^ 53 - 1) * u := Nat.mul_le_mul_right u (Nat.le_pred_of_lt hm)
  have hround : roundDiv n (d * 2 ^ k) = m := by
    rw [Nat.mul_comm d, hu]
    exact roundDiv_eq (by omega) (by omega)
  rcases Nat.eq_zero_or_pos k with rfl | hkpos
  · have hud : u = d := by rw [← hu, pow_zero, Nat.one_mul]
    have hquot : n / d < 2 ^ 53 := by
      rw [Nat.div_lt_iff_lt_mul hd, ← hud]
      omega
    have hlog : Nat.log2 (n / d) - 52 = 0 := by
      rcases Nat.eq_zero_or_pos (n / d) with hzero | hquotpos
      · rw [hzero]
        rfl
      · have := (Nat.log2_lt hquotpos.ne').mpr hquot
        omega
    rw [nearest_eq hlog hround hm (by decide), value_ofNat_mant hm (by decide)]
  · have hk' : k < 2046 := Nat.lt_of_le_of_lt hk hscale
    have hbits : 2 ^ 52 ≤ m := hbits.resolve_left hkpos.ne'
    have hbottom : 2 ^ 52 * u ≤ m * u := Nat.mul_le_mul_right u hbits
    have hpow : ∀ j, 2 ^ (j + k) * d = 2 ^ j * u := fun j => by rw [pow_add, Nat.mul_assoc, hu]
    have hquot : n / d < 2 ^ (53 + k) := by
      rw [Nat.div_lt_iff_lt_mul hd, hpow]
      omega
    rcases Nat.lt_or_ge (n / d) (2 ^ (52 + k)) with hless | hmore
    · -- only the least mantissa can be approached from the binade below
      rw [Nat.div_lt_iff_lt_mul hd, hpow] at hless
      have hm52 : m = 2 ^ 52 := by
        by_contra hne
        have : (2 ^ 52 + 1) * u ≤ m * u := Nat.mul_le_mul_right u (by omega)
        omega
      subst hm52
      obtain ⟨j, rfl⟩ := Nat.exists_eq_succ_of_ne_zero hkpos.ne'
      generalize hv : 2 ^ j * d = v
      have huv : u = 2 * v := by rw [← hu, ← hv, Nat.succ_eq_add_one, pow_succ', Nat.mul_assoc]
      have hlog : Nat.log2 (n / d) = 52 + j := by
        refine (Nat.log2_eq_iff ?_).mpr ⟨?_, ?_⟩
        · have hdv : d ≤ v := by
            rw [← hv]
            exact Nat.le_mul_of_pos_left d (Nat.two_pow_pos j)
          exact (Nat.div_pos (by omega) hd).ne'
        · rw [Nat.le_div_iff_mul_le hd, pow_add, Nat.mul_assoc, hv]
          omega
        · rw [Nat.div_lt_iff_lt_mul hd, Nat.add_right_comm, pow_add, Nat.mul_assoc, hv]
          omega
      have hround' : roundDiv n (d * 2 ^ j) = 2 ^ 53 := by
        rw [Nat.mul_comm d, hv]
        exact roundDiv_below (huv ▸ hlow) (huv ▸ hless)
      have hlog' : Nat.log2 (n / d) - 52 = j := by rw [hlog, Nat.add_sub_cancel_left]
      rw [nearest_eq_carry hlog' hround' hk', value_ofNat_mant hm hk']
    · have hlog : Nat.log2 (n / d) = 52 + k :=
        (Nat.log2_eq_iff (Nat.lt_of_lt_of_le (Nat.two_pow_pos _) hmore).ne').mpr
          ⟨hmore, by rwa [Nat.add_right_comm]⟩
      have hlog' : Nat.log2 (n / d) - 52 = k := by rw [hlog, Nat.add_sub_cancel_left]
      rw [nearest_eq hlog' hround hm hk', value_ofNat_mant hm hk']

/-- A double is rounded to itself. -/
theorem nearest_exact (neg : Bool) {d m k : Nat} (hd : 0 < d) (hm : m < 2 ^ 53) (hk : k < 2046) :
    (nearest neg (d * m * 2 ^ k) d).value =
      some ((if neg then -1 else 1 : ℚ) * (m * 2 ^ k : Nat) / (2 ^ 1074 : Nat)) := by
  have hself : d * m * 2 ^ k = m * 2 ^ k * d := by rw [Nat.mul_assoc, Nat.mul_comm]
  rw [hself]
  exact nearest_value neg hd hm hk (Nat.le_add_right _ _) (Nat.mul_le_mul_left _ (Nat.le_add_right _ _))

theorem ofQuotient_value {neg : Bool} {n d mant scale : Nat} (hd : 0 < d) (hmant : mant < 2 ^ 53)
    (hscale : scale < 2046)
    (hlow : mant * 2 ^ scale * d * 2 ^ 60 ≤ n * 2 ^ 1074 * 2 ^ 60 + mant * 2 ^ scale * d * 63)
    (hhigh : n * 2 ^ 1074 * 2 ^ 60 ≤ mant * 2 ^ scale * d * (2 ^ 60 + 63)) :
    (ofQuotient neg n d).value =
      some ((if neg then -1 else 1 : ℚ) * (mant * 2 ^ scale : Nat) / (2 ^ 1074 : Nat)) := by
  have hnear := nearest_value neg hd hmant hscale hlow hhigh
  unfold ofQuotient
  split
  · next hint =>
    -- an integer is a double itself
    obtain ⟨⟨m, rfl⟩, hm⟩ := hint
    rw [Nat.mul_div_cancel_left m hd] at hm ⊢
    have hk : 1074 < 2046 := by decide
    rw [← hnear, nearest_exact neg hd hm hk]
    exact value_ofNat_mant (m := m) (k := 1074) hm hk
  · exact hnear

end Binary64

/-! ## The significant digits of `%.pg` -/

namespace Printf

/-- The exponent of `%.pg` does not exceed the value. -/
theorem pow_exponent_le {n d : Nat} (hn : n ≠ 0) (hd : 0 < d) :
    (10 : ℚ) ^ (if d ≤ n then ((Nat.log 10 (n / d) : Nat) : Int)
      else -(Nat.clog 10 ((d + n - 1) / n) : Nat)) ≤ (n : ℚ) / d := by
  have hdq : (0 : ℚ) < d := Nat.cast_pos.mpr hd
  have hnq : (0 : ℚ) < n := Nat.cast_pos.mpr (Nat.pos_of_ne_zero hn)
  split
  · next hle =>
    rw [zpow_natCast, le_div_iff₀ hdq]
    have hlog := Nat.pow_log_le_self 10 (Nat.div_pos hle hd).ne'
    exact_mod_cast (Nat.mul_le_mul_right d hlog).trans (Nat.div_mul_le_self n d)
  · rw [zpow_neg, zpow_natCast, inv_le_comm₀ (by positivity) (by positivity), inv_div,
      div_le_iff₀ hnq]
    have hceil : d ≤ (d + n - 1) / n * n := by
      have hsplit := Nat.div_add_mod (d + n - 1) n
      have hlt := Nat.mod_lt (d + n - 1) (Nat.pos_of_ne_zero hn)
      rw [Nat.mul_comm] at hsplit
      omega
    have hclog := Nat.mul_le_mul_right n (Nat.le_pow_clog (b := 10) (by decide) ((d + n - 1) / n))
    exact_mod_cast hceil.trans hclog

theorem roundDiv_close {n d : Nat} (hd : 0 < d) : |(roundDiv n d : ℚ) - n / d| ≤ 1 / 2 := by
  have hdq : (0 : ℚ) < d := Nat.cast_pos.mpr hd
  have hsplit : (n : ℚ) = d * (n / d : Nat) + (n % d : Nat) := by
    exact_mod_cast (Nat.div_add_mod n d).symm
  have hlt := Nat.mod_lt n hd
  have hbounds : 2 * (roundDiv n d * d) ≤ 2 * n + d ∧ 2 * n ≤ 2 * (roundDiv n d * d) + d := by
    have hn := Nat.div_add_mod n d
    rw [Nat.mul_comm] at hn
    unfold roundDiv
    dsimp only
    split
    · omega
    · have hup : (n / d + 1) * d = n / d * d + d := Nat.succ_mul _ _
      omega
  obtain ⟨hlow, hhigh⟩ := hbounds
  have hlow' : 2 * ((roundDiv n d : ℚ) * d) ≤ 2 * n + d := by exact_mod_cast hlow
  have hhigh' : 2 * (n : ℚ) ≤ 2 * ((roundDiv n d : ℚ) * d) + d := by exact_mod_cast hhigh
  have hsub : (roundDiv n d : ℚ) - n / d = ((roundDiv n d : ℚ) * d - n) / d := by
    field_simp
  rw [hsub, abs_div, abs_of_pos hdq, div_le_iff₀ hdq, abs_le]
  constructor
  · linarith
  · linarith

/-- The value lies below the next power of ten. -/
theorem lt_pow_exponent {n d : Nat} (hn : n ≠ 0) (hd : 0 < d) :
    (n : ℚ) / d < 10 ^ ((if d ≤ n then ((Nat.log 10 (n / d) : Nat) : Int)
      else -(Nat.clog 10 ((d + n - 1) / n) : Nat)) + 1) := by
  have hdq : (0 : ℚ) < d := Nat.cast_pos.mpr hd
  split
  · rw [← Nat.cast_succ, zpow_natCast, div_lt_iff₀ hdq]
    have hlog := Nat.lt_pow_succ_log_self (b := 10) (by decide) (n / d)
    exact_mod_cast (Nat.div_lt_iff_lt_mul hd).mp hlog
  · next hlt =>
    have hnpos : 0 < n := Nat.pos_of_ne_zero hn
    have hceil : 1 < (d + n - 1) / n := by
      rw [Nat.lt_div_iff_mul_lt hnpos]
      omega
    obtain ⟨c, hc⟩ := Nat.exists_eq_succ_of_ne_zero (Nat.clog_pos (b := 10) (by decide) hceil).ne'
    have hpred := Nat.pow_pred_clog_lt_self (b := 10) (by decide) hceil
    rw [hc, Nat.pred_succ, Nat.lt_div_iff_mul_lt hnpos] at hpred
    have hless : 10 ^ c * n < d := by omega
    have hexp : -((c.succ : Nat) : Int) + 1 = -(c : Int) := by
      rw [Nat.succ_eq_add_one]
      push_cast
      ring
    rw [hc, hexp, zpow_neg, zpow_natCast, ← one_div, div_lt_div_iff₀ hdq (by positivity), one_mul,
      mul_comm]
    exact_mod_cast hless

/-- The digits that `%.pg` keeps are off by half a unit of the last one at most. -/
theorem significant_close {p n d : Nat} (hp : 0 < p) (hn : n ≠ 0) (hd : 0 < d) :
    |((significant p n d).2 : ℚ) * 10 ^ ((significant p n d).1 - (p - 1)) - n / d| ≤
      (n : ℚ) / d * 10 ^ (1 - p : Int) / 2 := by
  have hten : (10 : ℚ) ≠ 0 := by norm_num
  have hexp := pow_exponent_le hn hd
  unfold significant
  rw [if_neg hn]
  dsimp only
  generalize (if d ≤ n then ((Nat.log 10 (n / d) : Nat) : Int)
      else -(Nat.clog 10 ((d + n - 1) / n) : Nat)) = x at hexp ⊢
  generalize hs : (p : Int) - 1 - x = shift
  have hden : 0 < d * 10 ^ (-shift).toNat := Nat.mul_pos hd (Nat.pow_pos (by decide))
  have hclose := roundDiv_close (n := n * 10 ^ shift.toNat) hden
  have hscaled : ((n * 10 ^ shift.toNat : Nat) : ℚ) / (d * 10 ^ (-shift).toNat : Nat) =
      n / d * 10 ^ shift := by
    have hpow : (10 : ℚ) ^ shift = 10 ^ shift.toNat / 10 ^ (-shift).toNat := by
      rw [← zpow_natCast, ← zpow_natCast, ← zpow_sub₀ hten]
      congr 1
      omega
    rw [hpow]
    push_cast
    rw [mul_div_mul_comm]
  rw [hscaled] at hclose
  generalize roundDiv (n * 10 ^ shift.toNat) (d * 10 ^ (-shift).toNat) = q at hclose ⊢
  have hbound : |(q : ℚ) * 10 ^ (-shift) - n / d| ≤ (n : ℚ) / d * 10 ^ (1 - p : Int) / 2 := by
    have hpos : (0 : ℚ) < 10 ^ (-shift) := zpow_pos (by norm_num) _
    have hone : (10 : ℚ) ^ shift * 10 ^ (-shift) = 1 := by rw [← zpow_add₀ hten]; simp
    have hfactor : (q : ℚ) * 10 ^ (-shift) - n / d = (q - n / d * 10 ^ shift) * 10 ^ (-shift) := by
      rw [sub_mul, mul_assoc (n / d : ℚ), hone, mul_one]
    calc |(q : ℚ) * 10 ^ (-shift) - n / d|
        = |(q - n / d * 10 ^ shift : ℚ)| * 10 ^ (-shift) := by
          rw [hfactor, abs_mul, abs_of_pos hpos]
      _ ≤ 1 / 2 * 10 ^ (-shift) := mul_le_mul_of_nonneg_right hclose hpos.le
      _ = 10 ^ x * 10 ^ (1 - p : Int) / 2 := by
          rw [← zpow_add₀ hten, show -shift = x + (1 - p) by omega]
          ring
      _ ≤ (n : ℚ) / d * 10 ^ (1 - p : Int) / 2 := by
          have hunit : (0 : ℚ) < 10 ^ (1 - p : Int) := zpow_pos (by norm_num) _
          gcongr
  split
  · next hcarry =>
    have hvalue : ((10 ^ (p - 1) : Nat) : ℚ) * 10 ^ (x + 1 - (p - 1 : Int)) =
        (q : ℚ) * 10 ^ (-shift) := by
      rw [hcarry]
      push_cast
      rw [← zpow_natCast, ← zpow_natCast, ← zpow_add₀ hten, ← zpow_add₀ hten]
      congr 1
      omega
    dsimp only
    rw [hvalue]
    exact hbound
  · dsimp only
    rw [show x - (p - 1 : Int) = -shift by omega]
    exact hbound

theorem head_signed_general (p n d : Nat) (neg : Bool) :
    (signed neg (general p n d)).head? = some 45 ↔ neg = true := by
  obtain ⟨m, tail, hgen, -⟩ := isNumberTail_general p n d
  cases neg with
  | true => exact iff_of_true rfl rfl
  | false =>
    rw [hgen]
    exact iff_of_false (head_digits (decimal_digits m) tail) Bool.false_ne_true

/-- The text of `%.pg` is read to its end, and the value of its digits is rounded. -/
theorem strtod_general {p : Nat} (hp : 0 < p) (neg : Bool) (n d : Nat) :
    ∃ m e, 0 < e ∧ strtod (signed neg (general p n d)) = some (.ofQuotient neg m e, []) ∧
      (m : ℚ) / e = (significant p n d).2 * 10 ^ ((significant p n d).1 - (p - 1)) := by
  obtain ⟨m, e, he, hstrtod, hvalue⟩ := strtod_of_readDecimal (readDecimal_general hp neg n d)
  simp only [head_signed_general, Bool.decide_eq_true] at hstrtod hvalue
  have hsign : (if neg then -1 else 1 : ℚ) ≠ 0 := by split <;> norm_num
  exact ⟨m, e, he, hstrtod, (mul_left_cancel₀ hsign hvalue).symm⟩

/-- 17 significant digits are closer than `2 ^ -54`. -/
theorem significant_bounds {n d m e : Nat} (hd : 0 < d) (he : 0 < e)
    (h : (m : ℚ) / e = (significant 17 n d).2 * 10 ^ ((significant 17 n d).1 - (17 - 1))) :
    n * e * 2 ^ 60 ≤ m * d * 2 ^ 60 + n * e * 63 ∧ m * d * 2 ^ 60 ≤ n * e * (2 ^ 60 + 63) := by
  have hdq : (0 : ℚ) < d := Nat.cast_pos.mpr hd
  have heq : (0 : ℚ) < e := Nat.cast_pos.mpr he
  have hclose : |(m : ℚ) / e - n / d| ≤ (n : ℚ) / d * 10 ^ (1 - 17 : Int) / 2 := by
    rw [h]
    rcases Nat.eq_zero_or_pos n with rfl | hpos
    · simp [significant]
    · exact significant_close (Nat.succ_pos 16) hpos.ne' hd
  have hscaled : |(m : ℚ) * d - n * e| ≤ n * e * 10 ^ (1 - 17 : Int) / 2 := by
    have hfactor : (m : ℚ) * d - n * e = (m / e - n / d) * (d * e) := by
      field_simp
    have hright : (n : ℚ) * e * 10 ^ (1 - 17 : Int) / 2 =
        n / d * 10 ^ (1 - 17 : Int) / 2 * (d * e) := by
      field_simp
    rw [hfactor, hright, abs_mul, abs_of_pos (mul_pos hdq heq)]
    exact mul_le_mul_of_nonneg_right hclose (mul_pos hdq heq).le
  obtain ⟨hlow, hhigh⟩ := abs_le.mp hscaled
  have hprod : (0 : ℚ) ≤ (n : ℚ) * e := by positivity
  have htiny : (10 : ℚ) ^ (1 - 17 : Int) / 2 * 2 ^ 60 ≤ 63 := by norm_num
  have hbound := mul_le_mul_of_nonneg_left htiny hprod
  constructor
  · have : (n : ℚ) * e * 2 ^ 60 ≤ m * d * 2 ^ 60 + n * e * 63 := by linarith
    exact_mod_cast this
  · have : (m : ℚ) * d * 2 ^ 60 ≤ n * e * (2 ^ 60 + 63) := by linarith
    exact_mod_cast this

/-- A finite double is read back from 17 significant digits. -/
theorem strtod_formatG {x : Binary64} (hx : x.isFinite = true) :
    ∃ y, strtod (formatG 17 x) = some (y, []) ∧ y.value = x.value := by
  cases x with
  | inf neg => cases hx
  | nan neg => cases hx
  | finite neg mant scale =>
    obtain ⟨m, e, he, hstrtod, hvalue⟩ :=
      strtod_general (p := 17) (Nat.succ_pos 16) neg (mant.val * 2 ^ scale.val) (2 ^ 1074)
    refine ⟨.ofQuotient neg m e, hstrtod, ?_⟩
    have hbounds := significant_bounds (pow_pos Nat.two_pos 1074) he hvalue
    exact Binary64.ofQuotient_value he mant.isLt scale.isLt hbounds.1 hbounds.2

/-! ## Lengths -/

theorem roundDiv_le {n d m : Nat} (hd : 0 < d) (h : n ≤ m * d) : roundDiv n d ≤ m := by
  have hsplit := Nat.div_add_mod n d
  have hle : n / d ≤ m := Nat.div_le_of_le_mul (by rwa [Nat.mul_comm])
  unfold roundDiv
  dsimp only
  split
  · exact hle
  · next hup =>
    refine Nat.lt_of_le_of_ne hle fun heq => hup (.inl ?_)
    rw [heq, Nat.mul_comm] at hsplit
    have hmod : n % d = 0 := by omega
    omega

theorem length_decimal_le {n k : Nat} (hk : 0 < k) (h : n < 10 ^ k) : (decimal n).length ≤ k := by
  rw [decimal, List.length_map]
  exact (Nat.length_toDigits_le_iff (by decide) hk).mpr h

/-- As many digits as asked for. -/
theorem significant_lt {p n d : Nat} (hp : 0 < p) (hd : 0 < d) : (significant p n d).2 < 10 ^ p := by
  have hten : (10 : ℚ) ≠ 0 := by norm_num
  rcases Nat.eq_zero_or_pos n with rfl | hn
  · exact Nat.pow_pos (by decide)
  have hexp := lt_pow_exponent hn.ne' hd
  unfold significant
  rw [if_neg hn.ne']
  dsimp only
  generalize (if d ≤ n then ((Nat.log 10 (n / d) : Nat) : Int)
      else -(Nat.clog 10 ((d + n - 1) / n) : Nat)) = x at hexp ⊢
  generalize hs : (p : Int) - 1 - x = shift
  have hle : roundDiv (n * 10 ^ shift.toNat) (d * 10 ^ (-shift).toNat) ≤ 10 ^ p := by
    refine roundDiv_le (Nat.mul_pos hd (Nat.pow_pos (by decide))) ?_
    have hdq : (0 : ℚ) < d := Nat.cast_pos.mpr hd
    have hpow : (10 : ℚ) ^ (x + 1) * 10 ^ shift.toNat = 10 ^ p * 10 ^ (-shift).toNat := by
      rw [← zpow_natCast, ← zpow_natCast, ← zpow_natCast, ← zpow_add₀ hten, ← zpow_add₀ hten]
      congr 1
      omega
    have hscaled : (n : ℚ) * 10 ^ shift.toNat ≤ 10 ^ p * (d * 10 ^ (-shift).toNat) :=
      calc (n : ℚ) * 10 ^ shift.toNat
          ≤ 10 ^ (x + 1) * d * 10 ^ shift.toNat :=
            mul_le_mul_of_nonneg_right ((div_lt_iff₀ hdq).mp hexp).le (by positivity)
        _ = 10 ^ p * (d * 10 ^ (-shift).toNat) := by
            rw [mul_right_comm, hpow]
            ring
    exact_mod_cast hscaled
  split
  · exact Nat.pow_lt_pow_right (by decide) (Nat.pred_lt_of_lt hp)
  · next hne => exact Nat.lt_of_le_of_ne hle hne

theorem length_fraction_le (s : Bytes) : (fraction s).length ≤ s.length + 1 := by
  unfold fraction
  split
  · exact Nat.zero_le _
  · exact Nat.succ_le_succ (List.rdropWhile_prefix _ _).length_le

theorem length_exponent_le {x : Int} (hx : x.natAbs < 1000) : (exponent x).length ≤ 5 := by
  have hlen := length_decimal_le (n := x.natAbs) (k := 3) (by decide) hx
  unfold exponent
  simp only [List.length_cons]
  split
  · next hsmall =>
    have hone := length_decimal_le (n := x.natAbs) (k := 1) (by decide) hsmall
    rw [List.length_cons]
    omega
  · omega

/-- The exponent is bounded by the digits of the numerator and the denominator. -/
theorem significant_exponent_le {p n d k : Nat} (hn : n < 10 ^ k) (hd : d < 10 ^ k) :
    (significant p n d).1.natAbs ≤ k + 1 := by
  rcases Nat.eq_zero_or_pos n with rfl | hpos
  · exact Nat.zero_le _
  have hx : (if d ≤ n then ((Nat.log 10 (n / d) : Nat) : Int)
      else -(Nat.clog 10 ((d + n - 1) / n) : Nat)).natAbs ≤ k := by
    split
    · rw [Int.natAbs_natCast]
      exact (Nat.log_mono_right (Nat.div_le_self n d)).trans
        (Nat.log_lt_of_lt_pow hpos.ne' hn).le
    · rw [Int.natAbs_neg, Int.natAbs_natCast]
      refine Nat.clog_le_of_le_pow (Nat.le_trans ?_ hd.le)
      refine Nat.le_of_lt_succ ((Nat.div_lt_iff_lt_mul hpos).mpr ?_)
      have hle := Nat.le_mul_of_pos_right d hpos
      rw [Nat.succ_mul]
      omega
  unfold significant
  rw [if_neg hpos.ne']
  dsimp only
  generalize (if d ≤ n then ((Nat.log 10 (n / d) : Nat) : Int)
      else -(Nat.clog 10 ((d + n - 1) / n) : Nat)) = x at hx ⊢
  split
  · exact (Int.natAbs_add_le x 1).trans (Nat.succ_le_succ hx)
  · exact Nat.le_succ_of_le hx

theorem length_general_le {p n d : Nat} (hp : 0 < p) (hd : 0 < d)
    (hx : (significant p n d).1.natAbs < 1000) : (general p n d).length ≤ p + 6 := by
  have hq := significant_lt (n := n) hp hd
  unfold general
  generalize significant p n d = r at hx hq ⊢
  obtain ⟨x, q⟩ := r
  dsimp only at hx hq ⊢
  split
  · next hfixed =>
    generalize hk : ((p : Int) - 1 - x).toNat = k
    have hfrac := length_fraction_le (padded k (q % 10 ^ k))
    rw [length_padded] at hfrac
    rw [List.length_append]
    rcases lt_or_ge x 0 with hneg | hpos
    · have hle : p ≤ k := by omega
      have hzero : q / 10 ^ k = 0 :=
        Nat.div_eq_of_lt (hq.trans_le (Nat.pow_le_pow_right (by decide) hle))
      have hhead : (decimal (q / 10 ^ k)).length ≤ 1 := by
        rw [hzero]
        exact length_decimal_le Nat.one_pos (by decide)
      omega
    · have hsum : p = k + (x.toNat + 1) := by omega
      have hhead : (decimal (q / 10 ^ k)).length ≤ x.toNat + 1 := by
        refine length_decimal_le (Nat.succ_pos _) (Nat.div_lt_of_lt_mul ?_)
        rwa [← pow_add, ← hsum]
      omega
  · have hfrac := length_fraction_le (padded (p - 1) (q % 10 ^ (p - 1)))
    have hexp := length_exponent_le hx
    rw [length_padded] at hfrac
    have hhead : (decimal (q / 10 ^ (p - 1))).length ≤ 1 := by
      refine length_decimal_le (by decide) (Nat.div_lt_of_lt_mul ?_)
      rwa [pow_one, ← pow_succ, Nat.sub_add_cancel hp]
    simp only [List.length_append]
    omega

theorem two_pow_lt_ten_pow {k m : Nat} (h : k < 3 * m) : 2 ^ k < 10 ^ m := by
  calc 2 ^ k < 2 ^ (3 * m) := Nat.pow_lt_pow_right (by decide) h
    _ = 8 ^ m := pow_mul 2 3 m
    _ ≤ 10 ^ m := Nat.pow_le_pow_left (by decide) m

/-- A double in the style `%.pg` has a sign, `p` digits, a point and an exponent at most. -/
theorem length_formatG_le {p : Nat} (hp : 0 < p) (x : Binary64) :
    (formatG p x).length ≤ p + 7 := by
  have hsigned : ∀ (neg : Bool) (s : Bytes), s.length ≤ p + 6 →
      (signed neg s).length ≤ p + 7 := by
    intro neg s hs
    cases neg
    · exact Nat.le_succ_of_le hs
    · exact Nat.succ_le_succ hs
  cases x with
  | inf neg => exact hsigned neg _ (by rw [show (ascii "inf").length = 3 from rfl]; omega)
  | nan neg => exact hsigned neg _ (by rw [show (ascii "nan").length = 3 from rfl]; omega)
  | finite neg mant scale =>
    obtain ⟨m, hm, hm'⟩ : ∃ m, 2100 ≤ 3 * m ∧ m < 999 := ⟨700, by decide, by decide⟩
    have hn : mant.val * 2 ^ scale.val < 10 ^ m := by
      refine Nat.lt_of_lt_of_le (Nat.mul_lt_mul_of_pos_right mant.isLt (Nat.two_pow_pos _)) ?_
      rw [← pow_add]
      exact (two_pow_lt_ten_pow (by omega)).le
    have hd : 2 ^ 1074 < 10 ^ m := two_pow_lt_ten_pow (by omega)
    have hx := significant_exponent_le (p := p) hn hd
    exact hsigned neg _ (length_general_le hp (pow_pos Nat.two_pos 1074) (by omega))

/-! ## Integers with few digits -/

theorem fraction_zero (k : Nat) : fraction (padded k 0) = [] := by
  have hzeros : ∀ c ∈ padded k 0, decide (c = (48 : UInt8)) = true := by
    induction k with
    | zero => exact fun c hc => absurd hc List.not_mem_nil
    | succ k ih =>
      intro c hc
      rcases List.mem_append.mp hc with hc | hc
      · exact ih c hc
      · rw [List.mem_singleton.mp hc]
        rfl
  rw [fraction, List.rdropWhile_eq_nil_iff.mpr hzeros, if_pos rfl]

/-- The digits of an integer that has at most `p` of them. -/
theorem general_natural {p n d : Nat} (hp : 0 < p) (hn : n < 10 ^ p) (hd : 0 < d) :
    general p (n * d) d = decimal n := by
  rcases Nat.eq_zero_or_pos n with rfl | hpos
  · rw [Nat.zero_mul, general, significant, if_pos rfl]
    dsimp only
    rw [if_pos ⟨by decide, by exact_mod_cast hp⟩, Nat.zero_div, Nat.zero_mod, fraction_zero,
      List.append_nil]
  have hle : d ≤ n * d := Nat.le_mul_of_pos_left d hpos
  have hlog : Nat.log 10 n < p := Nat.log_lt_of_lt_pow hpos.ne' hn
  have hdigits : n < 10 ^ (Nat.log 10 n + 1) := Nat.lt_pow_succ_log_self (by decide) n
  -- as many zeros as digits are missing
  obtain ⟨k, hk⟩ : ∃ k, p = Nat.log 10 n + 1 + k := ⟨p - (Nat.log 10 n + 1), by omega⟩
  have hup : ((p : Int) - 1 - (Nat.log 10 n : Nat)).toNat = k := by omega
  have hdown : (-((p : Int) - 1 - (Nat.log 10 n : Nat))).toNat = 0 := by omega
  have hlt : n * 10 ^ k < 10 ^ p := by
    rw [hk, Nat.pow_add]
    exact Nat.mul_lt_mul_of_pos_right hdigits (Nat.pow_pos (by decide))
  have hsig : significant p (n * d) d = (((Nat.log 10 n : Nat) : Int), n * 10 ^ k) := by
    rw [significant, if_neg (Nat.mul_pos hpos hd).ne', if_pos hle, Nat.mul_div_cancel _ hd]
    dsimp only
    rw [hup, hdown, Nat.pow_zero, Nat.mul_one, Nat.mul_right_comm, roundDiv_mul_self hd]
    exact if_neg hlt.ne
  rw [general, hsig]
  dsimp only
  rw [if_pos ⟨by omega, by exact_mod_cast hlog⟩, hup, Nat.mul_div_cancel _ (Nat.pow_pos (by decide)),
    Nat.mul_mod_left, fraction_zero, List.append_nil]

/-- An integer of at most `p` digits is printed as by `%d`. -/
theorem formatG_ofInt {p : Nat} {n : Int} (hp : 0 < p) (hn : n.natAbs < 10 ^ p)
    (hsmall : n.natAbs < 2 ^ 53) : formatG p (.ofInt n) = decimalInt n := by
  have hmant : (Fin.ofNat (2 ^ 53) n.natAbs).val = n.natAbs := Nat.mod_eq_of_lt hsmall
  have hscale : (1074 : Fin 2046).val = 1074 := rfl
  rw [Binary64.ofInt, formatG, hmant, hscale,
    general_natural hp hn (pow_pos Nat.two_pos 1074), decimalInt]
end Printf
