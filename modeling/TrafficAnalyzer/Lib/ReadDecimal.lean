import Mathlib.Algebra.Order.Field.Rat
import Mathlib.Data.Nat.Cast.Order.Field
import Mathlib.Data.Rat.Cast.Order
import Mathlib.Tactic.FieldSimp
import Mathlib.Tactic.Ring
import TrafficAnalyzer.Lib.CText
import TrafficAnalyzer.Lib.Printf

/-!
# Decimal numbers read back

The value of a text in the style of `printf`: an optional minus, digits, digits behind a point
and an exponent.

* `readDecimal_general`: the text of `%.pg` has the value of its significant digits.
* `readDecimal_formatG_iff`: a natural number is read back from `%.pg` exactly if it has at
  most `p` significant digits.
-/

/-- The value of a finite double. -/
def Binary64.value : Binary64 → Option ℚ
  | finite neg mant scale =>
    some ((if neg then -1 else 1) * (mant.val * 2 ^ scale.val : Nat) / (2 ^ 1074 : Nat))
  | _ => none

theorem cast_mul_div {n d : ℕ} (hd : 0 < d) : ((n * d : ℕ) : ℚ) / d = n := by
  rw [Nat.cast_mul, mul_div_cancel_right₀ _ (Nat.cast_ne_zero.mpr hd.ne')]

theorem Binary64.value_ofNat {n : Nat} (hn : n < 2 ^ 53) : (ofNat n).value = some (n : ℚ) := by
  have hmant : (Fin.ofNat (2 ^ 53) n).val = n := Nat.mod_eq_of_lt hn
  have hscale : (1074 : Fin 2046).val = 1074 := rfl
  rw [ofNat, value, hmant, hscale, if_neg Bool.false_ne_true, one_mul,
    cast_mul_div (pow_pos Nat.two_pos 1074)]

namespace Printf

open LineProtocol CText

/-! ## Reading -/

/-- The value of digits behind the point. -/
def fractionValue (fs : Bytes) : ℚ := digitsValue fs / 10 ^ fs.length

/-- The number behind `e`, and 0 without one. -/
def exponentValue : Bytes → Option Int
  | [] => some 0
  | 101 :: 43 :: s => if isDigits s then some (digitsValue s) else none
  | 101 :: 45 :: s => if isDigits s then some (-digitsValue s) else none
  | 101 :: s => if isDigits s then some (digitsValue s) else none
  | _ => none

/-- What may follow the integer digits: the digits behind the point, and the exponent. -/
def readTail : Bytes → Option (Bytes × Int)
  | 46 :: s => (exponentValue (s.dropWhile isDigit)).map fun e => (s.takeWhile isDigit, e)
  | s => (exponentValue s).map fun e => ([], e)

def readDecimal (s : Bytes) : Option ℚ :=
  let ds := (dropMinus s).takeWhile isDigit
  if ds = [] then none
  else
    (readTail ((dropMinus s).dropWhile isDigit)).map fun r =>
      (if s.head? = some 45 then -1 else 1) * ((digitsValue ds + fractionValue r.1) * 10 ^ r.2)

example : readDecimal (ascii "-1.5e+06") = some (-1500000) := by decide +kernel

/-! ## The parts of a text -/

theorem digitsValue_decimal (n : Nat) : digitsValue (decimal n) = n := by
  have hfold : ∀ (l : List Char) (a : Nat), (∀ c ∈ l, c.isDigit = true) →
      (l.map fun c => UInt8.ofNat c.toNat).foldl (fun n c => 10 * n + (c.toNat - 48)) a =
        Nat.ofDigitChars 10 l a := by
    intro l
    induction l with
    | nil => exact fun a _ => by simp
    | cons c l ih =>
      intro a hl
      have hc : c.toNat < 256 := by
        have := hl c (List.mem_cons_self ..)
        simp only [Char.isDigit, Bool.and_eq_true, decide_eq_true_eq, ge_iff_le,
          UInt32.le_iff_toNat_le] at this
        exact Nat.lt_of_le_of_lt this.2 (by decide)
      rw [List.map_cons, List.foldl_cons, ih _ fun d hd => hl d (List.mem_cons_of_mem c hd),
        Nat.ofDigitChars_cons, UInt8.toNat_ofNat', Nat.mod_eq_of_lt hc]
      rfl
  rw [digitsValue, decimal, hfold _ _ fun c hc =>
    Nat.isDigit_of_mem_toDigits (by decide) (by decide) hc, Nat.ofDigitChars_ten_toDigits]

theorem digitsValue_padded (k n : Nat) : digitsValue (padded k n) = n % 10 ^ k := by
  induction k generalizing n with
  | zero => simp [padded, digitsValue, Nat.mod_one]
  | succ k ih =>
    have hdigit : digitsValue [UInt8.ofNat (48 + n % 10)] = n % 10 := by
      have : n % 10 < 10 := Nat.mod_lt n (by decide)
      simp only [digitsValue, List.foldl_cons, List.foldl_nil, UInt8.toNat_ofNat']
      omega
    rw [padded, digitsValue_append, ih, hdigit, List.length_singleton, pow_one, pow_succ',
      Nat.mod_mul, Nat.add_comm, Nat.mul_comm]

theorem fractionValue_padded (k n : Nat) :
    fractionValue (padded k (n % 10 ^ k)) = (n % 10 ^ k : Nat) / 10 ^ k := by
  rw [fractionValue, digitsValue_padded, length_padded, Nat.mod_mod]

/-- Zeros at the end of a fraction do not count. -/
theorem fractionValue_rdropWhile (fs : Bytes) :
    fractionValue (fs.rdropWhile (· = 48)) = fractionValue fs := by
  induction fs using List.reverseRecOn with
  | nil => rfl
  | append_singleton fs c ih =>
    rw [List.rdropWhile_concat]
    split
    · next hc =>
      obtain rfl := of_decide_eq_true hc
      have hzero : digitsValue [48] = 0 := rfl
      rw [ih, fractionValue, fractionValue, digitsValue_append, hzero, List.length_append,
        List.length_singleton, pow_one, pow_succ]
      push_cast
      field_simp
      simp
    · rfl

theorem exponentValue_exponent (x : Int) : exponentValue (exponent x) = some x := by
  have hexp : ∀ ds : Bytes, isDigits ds = true → digitsValue ds = x.natAbs →
      exponentValue (101 :: (if x < 0 then 45 else 43) :: ds) = some x := by
    intro ds hds hval
    rcases lt_or_ge x 0 with hneg | hpos
    · rw [if_pos hneg, exponentValue, if_pos hds, hval, Int.ofNat_natAbs_of_nonpos hneg.le, neg_neg]
    · rw [if_neg hpos.not_gt, exponentValue, if_pos hds, hval, Int.natAbs_of_nonneg hpos]
  rw [exponent]
  refine hexp _ ?_ ?_
  · split
    · have hdigits := decimal_digits x.natAbs
      simp only [isDigits, ne_eq, Bool.decide_and, Bool.and_eq_true, decide_eq_true_eq] at hdigits
      simp only [isDigits, List.all_cons, hdigits.2]
      rfl
    · exact decimal_digits x.natAbs
  · split
    · refine (digitsValue_append [48] (decimal x.natAbs)).trans ?_
      rw [digitsValue_decimal, show digitsValue [48] = 0 from rfl, Nat.zero_mul, Nat.zero_add]
    · exact digitsValue_decimal _

theorem exponent_takeWhile (x : Int) : (exponent x).takeWhile isDigit = [] :=
  isExponent_takeWhile (isExponent_exponent x)

theorem fraction_takeWhile (fs : Bytes) {e : Bytes} (he : e.takeWhile isDigit = []) :
    (fraction fs ++ e).takeWhile isDigit = [] := by
  unfold fraction
  split
  · exact he
  · rfl

/-- The digits of a fraction and an exponent are read from what follows the integer digits. -/
theorem readTail_fraction {fs e : Bytes} {x : Int} (hfs : ∀ c ∈ fs, isDigit c = true)
    (he : e.takeWhile isDigit = []) (hx : exponentValue e = some x) (hpoint : e.head? ≠ some 46) :
    readTail (fraction fs ++ e) = some (fs.rdropWhile (· = 48), x) := by
  unfold fraction
  split
  · next hnil =>
    rw [hnil, List.nil_append]
    unfold readTail
    split
    · exact absurd rfl hpoint
    · rw [hx, Option.map_some]
  · have hbody := takeWhile_digits
      (fun c hc => hfs c ((List.rdropWhile_prefix (· = 48) fs).subset hc)) he
    rw [List.cons_append, readTail, hbody.1, hbody.2, hx, Option.map_some]

/-- A text is read as its parts say. -/
theorem readDecimal_signed {ds tail fs : Bytes} {x : Int} (neg : Bool) (hds : isDigits ds = true)
    (htail : tail.takeWhile isDigit = []) (hread : readTail tail = some (fs, x)) :
    readDecimal (signed neg (ds ++ tail)) =
      some ((if neg then -1 else 1) * ((digitsValue ds + fractionValue fs) * 10 ^ x)) := by
  have hhead := head_digits hds tail
  obtain ⟨hne, hall⟩ : ds ≠ [] ∧ ∀ c ∈ ds, isDigit c = true := by simpa [isDigits] using hds
  have hbody := takeWhile_digits hall htail
  rw [readDecimal, dropMinus_signed neg hhead, hbody.1, hbody.2, if_neg hne, hread, Option.map_some]
  cases neg with
  | true => rfl
  | false => rw [signed, if_neg Bool.false_ne_true, if_neg hhead, if_neg Bool.false_ne_true]

/-- Digits before and behind the point together. -/
theorem split_digits (k q : Nat) :
    ((q / 10 ^ k : Nat) : ℚ) + ((q % 10 ^ k : Nat) : ℚ) / 10 ^ k = q / 10 ^ k := by
  have hpow : (10 : ℚ) ^ k ≠ 0 := pow_ne_zero k (by norm_num)
  have hdiv : ((q % 10 ^ k + 10 ^ k * (q / 10 ^ k) : Nat) : ℚ) = q :=
    congrArg Nat.cast (Nat.mod_add_div q (10 ^ k))
  push_cast at hdiv
  field_simp
  rw [← hdiv]
  ring

/-- The text of `%.pg` has the value of the digits that are kept. -/
theorem readDecimal_general {p : Nat} (hp : 0 < p) (neg : Bool) (n d : Nat) :
    readDecimal (signed neg (general p n d)) = some ((if neg then -1 else 1) *
      (((significant p n d).2 : ℚ) * 10 ^ ((significant p n d).1 - (p - 1)))) := by
  unfold general
  generalize significant p n d = r
  obtain ⟨x, q⟩ := r
  dsimp only
  split
  · next hx =>
    generalize hk : ((p : Int) - 1 - x).toNat = k
    have hexp : x - (p - 1) = -(k : Int) := by omega
    have htail := fraction_takeWhile (padded k (q % 10 ^ k)) (e := []) rfl
    have hread := readTail_fraction (e := []) (padded_digits k (q % 10 ^ k)) rfl rfl (by simp)
    rw [List.append_nil] at htail hread
    rw [readDecimal_signed neg (decimal_digits _) htail hread, digitsValue_decimal,
      fractionValue_rdropWhile, fractionValue_padded, split_digits, zpow_zero, mul_one, hexp,
      zpow_neg, zpow_natCast, div_eq_mul_inv]
  · have htail := fraction_takeWhile (padded (p - 1) (q % 10 ^ (p - 1))) (exponent_takeWhile x)
    have hread := readTail_fraction (padded_digits (p - 1) (q % 10 ^ (p - 1)))
      (exponent_takeWhile x) (exponentValue_exponent x) (by simp [exponent])
    have hexp : (10 : ℚ) ^ (x - (p - 1)) = 10 ^ x / 10 ^ (p - 1) := by
      rw [zpow_sub₀ (by norm_num), ← Nat.cast_pred hp, zpow_natCast]
    rw [List.append_assoc, readDecimal_signed neg (decimal_digits _) htail hread,
      digitsValue_decimal, fractionValue_rdropWhile, fractionValue_padded, split_digits, hexp,
      div_mul_eq_mul_div, mul_div_assoc]

/-! ## Natural numbers -/

theorem roundDiv_mul_right {k : Nat} (hk : 0 < k) (n d : Nat) :
    roundDiv (n * k) (d * k) = roundDiv n d := by
  have hlt : 2 * (n % d * k) < d * k ↔ 2 * (n % d) < d := by
    rw [← Nat.mul_assoc, Nat.mul_lt_mul_right hk]
  have heq : 2 * (n % d * k) = d * k ↔ 2 * (n % d) = d := by
    rw [← Nat.mul_assoc, Nat.mul_left_inj hk.ne']
  simp only [roundDiv, Nat.mul_div_mul_right _ _ hk, Nat.mul_mod_mul_right, hlt, heq]

theorem roundDiv_mul_self {d : Nat} (hd : 0 < d) (n : Nat) : roundDiv (n * d) d = n := by
  simp [roundDiv, Nat.mul_div_cancel n hd, hd]

/-- Rounding is exact on multiples only. -/
theorem roundDiv_mul_eq_iff {n d : Nat} (hd : 0 < d) : roundDiv n d * d = n ↔ d ∣ n := by
  constructor
  · exact fun h => Dvd.intro_left _ h
  · rintro ⟨m, rfl⟩
    rw [Nat.mul_comm d m, roundDiv_mul_self hd]

/-- The digits of a natural number that `%.pg` drops. -/
def dropped (p n : Nat) : Nat := Nat.log 10 n + 1 - p

/-- The value of the digits that are kept is the number rounded to them. -/
theorem significant_value {p n d : Nat} (hp : 0 < p) (hd : 0 < d) (hn : n ≠ 0) :
    ((significant p (n * d) d).2 : ℚ) * 10 ^ ((significant p (n * d) d).1 - (p - 1)) =
      (roundDiv n (10 ^ dropped p n) * 10 ^ dropped p n : Nat) := by
  have hle : d ≤ n * d := Nat.le_mul_of_pos_left d (Nat.pos_of_ne_zero hn)
  unfold significant
  rw [if_neg (Nat.mul_ne_zero hn hd.ne'), if_pos hle, Nat.mul_div_cancel n hd]
  dsimp only
  rcases Nat.lt_or_ge (Nat.log 10 n) p with hfew | hmany
  · have hdrop : dropped p n = 0 := by unfold dropped; omega
    have hshift : ((p : Int) - 1 - (Nat.log 10 n : Nat)).toNat = p - 1 - Nat.log 10 n := by omega
    have hneg : (-((p : Int) - 1 - (Nat.log 10 n : Nat))).toNat = 0 := by omega
    have hq : roundDiv (n * d * 10 ^ (p - 1 - Nat.log 10 n)) (d * 10 ^ 0) =
        n * 10 ^ (p - 1 - Nat.log 10 n) := by
      rw [pow_zero, Nat.mul_one, Nat.mul_right_comm, roundDiv_mul_self hd]
    have hlt : n * 10 ^ (p - 1 - Nat.log 10 n) < 10 ^ p := by
      calc n * 10 ^ (p - 1 - Nat.log 10 n)
          < 10 ^ (Nat.log 10 n + 1) * 10 ^ (p - 1 - Nat.log 10 n) :=
            Nat.mul_lt_mul_of_pos_right (Nat.lt_pow_succ_log_self (by decide) n)
              (Nat.pow_pos (by decide))
        _ = 10 ^ p := by rw [← pow_add]; congr 1; omega
    have hexp : ((Nat.log 10 n : Nat) : Int) - (p - 1) = -((p - 1 - Nat.log 10 n : Nat) : Int) := by
      omega
    have hone : roundDiv n (10 ^ 0) * 10 ^ 0 = n := roundDiv_mul_eq_iff Nat.one_pos |>.mpr (one_dvd n)
    rw [hshift, hneg, hq, if_neg hlt.ne, hdrop, hone, hexp, zpow_neg, zpow_natCast, Nat.cast_mul,
      Nat.cast_pow, Nat.cast_ofNat, mul_inv_cancel_right₀ (pow_ne_zero _ (by norm_num))]
  · have hshift : ((p : Int) - 1 - (Nat.log 10 n : Nat)).toNat = 0 := by omega
    have hneg : (-((p : Int) - 1 - (Nat.log 10 n : Nat))).toNat = dropped p n := by
      unfold dropped; omega
    have hexp : ((Nat.log 10 n : Nat) : Int) - (p - 1) = (dropped p n : Int) := by
      unfold dropped; omega
    rw [hshift, hneg, pow_zero, Nat.mul_one, Nat.mul_comm d, roundDiv_mul_right hd]
    split
    · next hcarry =>
      have hup : ((Nat.log 10 n : Nat) : Int) + 1 - (p - 1) = (dropped p n + 1 : Nat) := by
        rw [Nat.cast_succ, ← hexp]
        ring
      dsimp only
      rw [hcarry, hup, zpow_natCast, ← Nat.sub_add_cancel hp]
      push_cast
      ring
    · rw [hexp, zpow_natCast]
      push_cast
      rfl

/-- At most `p` significant digits. -/
def FewDigits (p n : Nat) : Prop := ∃ m k, m < 10 ^ p ∧ n = m * 10 ^ k

theorem dropped_dvd_iff {p n : Nat} (hn : n ≠ 0) : 10 ^ dropped p n ∣ n ↔ FewDigits p n := by
  constructor
  · rintro ⟨m, hm⟩
    refine ⟨m, dropped p n, ?_, hm.trans (Nat.mul_comm _ _)⟩
    by_contra hbig
    have hlog : Nat.log 10 n + 1 ≤ p + dropped p n := by unfold dropped; omega
    have hlt : n < 10 ^ (p + dropped p n) :=
      (Nat.lt_pow_succ_log_self (by decide) n).trans_le (Nat.pow_le_pow_right (by decide) hlog)
    refine absurd hlt (Nat.not_lt.mpr ?_)
    calc 10 ^ (p + dropped p n) = 10 ^ dropped p n * 10 ^ p := by rw [pow_add, Nat.mul_comm]
      _ ≤ 10 ^ dropped p n * m := Nat.mul_le_mul_left _ (Nat.not_lt.mp hbig)
      _ = n := hm.symm
  · rintro ⟨m, k, hm, hnm⟩
    rcases Nat.lt_or_ge k (dropped p n) with hk | hk
    · -- with fewer zeros the number would have fewer digits than its logarithm says
      have hlog : p + k ≤ Nat.log 10 n := by unfold dropped at hk; omega
      have hlt : n < 10 ^ (p + k) := by
        rw [hnm, pow_add]
        exact Nat.mul_lt_mul_of_pos_right hm (Nat.pow_pos (by decide))
      have hge : 10 ^ (p + k) ≤ n :=
        (Nat.pow_le_pow_right (by decide) hlog).trans (Nat.pow_log_le_self 10 hn)
      exact absurd hlt (Nat.not_lt.mpr hge)
    · have hdvd : 10 ^ dropped p n ∣ m * 10 ^ k := (pow_dvd_pow 10 hk).mul_left m
      rwa [← hnm] at hdvd

/-- A quotient with a sign that is a natural number. -/
theorem signed_quotient {neg : Bool} {v d n : Nat} (hd : 0 < d)
    (h : (if neg then -1 else 1) * (v : ℚ) / d = n) : v = n * d ∧ (neg = false ∨ n = 0) := by
  have hd' : (d : ℚ) ≠ 0 := Nat.cast_ne_zero.mpr hd.ne'
  rw [div_eq_iff hd'] at h
  cases neg with
  | false =>
    rw [if_neg Bool.false_ne_true, one_mul] at h
    exact ⟨by exact_mod_cast h, .inl rfl⟩
  | true =>
    rw [if_pos rfl, neg_one_mul] at h
    have hsum : v + n * d = 0 := by
      have : (v : ℚ) + n * d = 0 := by rw [← h, add_neg_cancel]
      exact_mod_cast this
    obtain ⟨hv, hn⟩ := Nat.add_eq_zero_iff.mp hsum
    exact ⟨hv.trans hn.symm, .inr ((Nat.mul_eq_zero.mp hn).resolve_right hd.ne')⟩

theorem readDecimal_general_iff {p n v d : Nat} {neg : Bool} (hp : 0 < p) (hd : 0 < d)
    (h : (if neg then -1 else 1) * (v : ℚ) / d = n) :
    readDecimal (signed neg (general p v d)) = some (n : ℚ) ↔ FewDigits p n := by
  obtain ⟨rfl, hneg⟩ := signed_quotient hd h
  rw [readDecimal_general hp, Option.some.injEq]
  rcases Nat.eq_zero_or_pos n with rfl | hpos
  · refine iff_of_true ?_ ⟨0, 0, Nat.pow_pos (by decide), rfl⟩
    rw [Nat.zero_mul, significant, if_pos rfl, Nat.cast_zero, zero_mul, mul_zero]
  · rw [hneg.resolve_right hpos.ne', if_neg Bool.false_ne_true, one_mul,
      significant_value hp hd hpos.ne', Nat.cast_inj, roundDiv_mul_eq_iff (Nat.pow_pos (by decide)),
      dropped_dvd_iff hpos.ne']

/-- A natural number is read back from `%.pg` exactly if it has at most `p` significant
digits. -/
theorem readDecimal_formatG_iff {p n : Nat} (hp : 0 < p) {x : Binary64}
    (hx : x.value = some (n : ℚ)) : readDecimal (formatG p x) = x.value ↔ FewDigits p n := by
  cases x with
  | inf neg => cases hx
  | nan neg => cases hx
  | finite neg mant scale =>
    rw [hx]
    exact readDecimal_general_iff hp (pow_pos Nat.two_pos 1074) (Option.some.inj hx)

end Printf
