import Mathlib.Algebra.Group.Int.Defs
import Mathlib.Algebra.Group.Nat.Defs
import Mathlib.Data.List.DropRight
import Mathlib.Data.Nat.Log
import TrafficAnalyzer.Lib.LineProtocol

/-!
# The numbers of `printf`

The conversions `%u`, `%d`, `%lld`, `%.kf` and `%.pg` in the C locale, over exact values:
the printed decimal is the value rounded half to even.

* `isNumber_formatG`, `isNumber_formatF`: a double is printed as a number of the line
  protocol exactly if it is finite.
-/

/-- A double: `mant · 2 ^ (scale - 1074)` with its sign, an infinity or a NaN. -/
inductive Binary64
  | finite (neg : Bool) (mant : Fin (2 ^ 53)) (scale : Fin 2046)
  | inf (neg : Bool)
  | nan (neg : Bool)
deriving DecidableEq, Repr

namespace Binary64

def isFinite : Binary64 → Bool
  | finite _ _ _ => true
  | _ => false

/-- A natural number below `2 ^ 53` as a double. -/
def ofNat (n : Nat) : Binary64 := finite false (Fin.ofNat (2 ^ 53) n) 1074

/-- The value `0.0`. -/
def zero : Binary64 := ofNat 0

/-- The cast to `long long`: truncation towards zero. Out of its range C leaves the result
open, and x86-64 yields the least value. -/
def toLongLong : Binary64 → Int
  | finite neg mant scale =>
    let n : Int := (mant.val * 2 ^ scale.val / 2 ^ 1074 : Nat)
    let n := if neg then -n else n
    if -2 ^ 63 ≤ n ∧ n < 2 ^ 63 then n else -2 ^ 63
  | _ => -2 ^ 63

/-- `x >= n` for an `int`, which is a double without rounding. -/
def atLeast (x : Binary64) (n : Int) : Bool :=
  match x with
  | .finite neg mant scale =>
    let v : Int := (mant.val * 2 ^ scale.val : Nat)
    n * 2 ^ 1074 ≤ if neg then -v else v
  | .inf neg => !neg
  | .nan _ => false

end Binary64

namespace Printf

/-! ## Integers -/

def decimal (n : Nat) : Bytes := (Nat.toDigits 10 n).map fun c => UInt8.ofNat c.toNat

def signed (neg : Bool) (s : Bytes) : Bytes := if neg then 45 :: s else s

/-- `%d` and `%lld`. -/
def decimalInt (n : Int) : Bytes := signed (n < 0) (decimal n.natAbs)

/-! ## Doubles -/

/-- `n / d` to the nearest integer, a tie to the even one. -/
def roundDiv (n d : Nat) : Nat :=
  let q := n / d
  let r := n % d
  if 2 * r < d ∨ (2 * r = d ∧ q % 2 = 0) then q else q + 1

/-- The last `k` digits of a number. -/
def padded : Nat → Nat → Bytes
  | 0, _ => []
  | k + 1, n => padded k (n / 10) ++ [UInt8.ofNat (48 + n % 10)]

/-- The digits of `n / d` with `k` of them after the point. -/
def fixed (k n d : Nat) : Bytes :=
  let q := roundDiv (n * 10 ^ k) d
  decimal (q / 10 ^ k) ++ 46 :: padded k (q % 10 ^ k)

/-- A fraction without its trailing zeros, and without the point if nothing is left. -/
def fraction (s : Bytes) : Bytes :=
  if s.rdropWhile (· = 48) = [] then [] else 46 :: s.rdropWhile (· = 48)

/-- `e`, a sign and at least two digits. -/
def exponent (x : Int) : Bytes :=
  101 :: (if x < 0 then 45 else 43) ::
    (if x.natAbs < 10 then 48 :: decimal x.natAbs else decimal x.natAbs)

/-- `n / d` as `q · 10 ^ (x - p + 1)` where `q` has `p` digits: the pair of `x` and `q`. -/
def significant (p n d : Nat) : Int × Nat :=
  if n = 0 then (0, 0)
  else
    let x : Int :=
      if d ≤ n then (Nat.log 10 (n / d) : Nat) else -(Nat.clog 10 ((d + n - 1) / n) : Nat)
    let shift := (p : Int) - 1 - x
    let q := roundDiv (n * 10 ^ shift.toNat) (d * 10 ^ (-shift).toNat)
    -- rounding may carry into one digit more
    if q = 10 ^ p then (x + 1, 10 ^ (p - 1)) else (x, q)

/-- The digits of `n / d` in the style `%.pg`. -/
def general (p n d : Nat) : Bytes :=
  let (x, q) := significant p n d
  if -4 ≤ x ∧ x < p then
    let k := ((p : Int) - 1 - x).toNat
    decimal (q / 10 ^ k) ++ fraction (padded k (q % 10 ^ k))
  else
    decimal (q / 10 ^ (p - 1)) ++ fraction (padded (p - 1) (q % 10 ^ (p - 1))) ++ exponent x

/-- `%.kf`. -/
def formatF (k : Nat) : Binary64 → Bytes
  | .finite neg mant scale => signed neg (fixed k (mant.val * 2 ^ scale.val) (2 ^ 1074))
  | .inf neg => signed neg (ascii "inf")
  | .nan neg => signed neg (ascii "nan")

/-- `%.pg`. -/
def formatG (p : Nat) : Binary64 → Bytes
  | .finite neg mant scale => signed neg (general p (mant.val * 2 ^ scale.val) (2 ^ 1074))
  | .inf neg => signed neg (ascii "inf")
  | .nan neg => signed neg (ascii "nan")

example : formatG 6 (.ofNat 1500000) = ascii "1.5e+06" := by decide +kernel

example : formatF 6 (.finite true 47111 1060) = ascii "-2.875427" := by decide +kernel

/-! ## The texts are numbers -/

open LineProtocol

theorem isDigit_ofNat {k : Nat} (h1 : 48 ≤ k) (h2 : k ≤ 57) : isDigit (UInt8.ofNat k) = true := by
  have hk : (UInt8.ofNat k).toNat = k := by
    rw [UInt8.toNat_ofNat']
    omega
  simp [isDigit, UInt8.le_iff_toNat_le, hk, h1, h2]

theorem decimal_digits (n : Nat) : isDigits (decimal n) = true := by
  have hne : decimal n ≠ [] := by simp [decimal, Nat.toDigits_ne_nil]
  have hall : ∀ c ∈ decimal n, isDigit c = true := by
    intro c hc
    obtain ⟨d, hd, rfl⟩ := List.mem_map.mp hc
    have hdig := Nat.isDigit_of_mem_toDigits (by decide) (by decide) hd
    simp only [Char.isDigit, Bool.and_eq_true, decide_eq_true_eq, ge_iff_le] at hdig
    exact isDigit_ofNat (UInt32.le_iff_toNat_le.mp hdig.1) (UInt32.le_iff_toNat_le.mp hdig.2)
  simp [isDigits, hne, List.all_eq_true.mpr hall]

theorem padded_digits (k n : Nat) : ∀ c ∈ padded k n, isDigit c = true := by
  induction k generalizing n with
  | zero => exact fun c hc => absurd hc List.not_mem_nil
  | succ k ih =>
    intro c hc
    rcases List.mem_append.mp hc with hc | hc
    · exact ih _ c hc
    · rw [List.mem_singleton.mp hc]
      have : n % 10 < 10 := Nat.mod_lt n (by decide)
      exact isDigit_ofNat (by omega) (by omega)

theorem length_padded (k n : Nat) : (padded k n).length = k := by
  induction k generalizing n with
  | zero => rfl
  | succ k ih => rw [padded, List.length_append, ih, List.length_singleton]

theorem takeWhile_digits {ds tail : Bytes} (hds : ∀ c ∈ ds, isDigit c = true)
    (ht : tail.takeWhile isDigit = []) :
    (ds ++ tail).takeWhile isDigit = ds ∧ (ds ++ tail).dropWhile isDigit = tail := by
  have hdrop := List.takeWhile_append_dropWhile (p := isDigit) (l := tail)
  rw [ht, List.nil_append] at hdrop
  rw [List.takeWhile_append_of_pos hds, List.dropWhile_append_of_pos hds, ht, hdrop,
    List.append_nil]
  exact ⟨rfl, rfl⟩

theorem isExponent_takeWhile {s : Bytes} (h : isExponent s = true) :
    s.takeWhile isDigit = [] := by
  unfold isExponent at h
  split at h
  · rfl
  · rfl
  · rfl
  · cases h

theorem isNumberTail_takeWhile {s : Bytes} (h : isNumberTail s = true) :
    s.takeWhile isDigit = [] := by
  unfold isNumberTail at h
  split at h
  · rfl
  · rfl
  · rfl
  · exact isExponent_takeWhile h

theorem isNumberTail_of_isExponent {s : Bytes} (h : isExponent s = true) :
    isNumberTail s = true := by
  unfold isNumberTail
  split
  · rfl
  · rfl
  · cases h
  · exact h

theorem dropMinus_signed {s : Bytes} (neg : Bool) (hs : s.head? ≠ some 45) :
    dropMinus (signed neg s) = s := by
  cases neg with
  | true => rfl
  | false =>
    change dropMinus s = s
    unfold dropMinus
    split
    · exact absurd rfl hs
    · rfl

/-- A text of digits does not begin with a minus. -/
theorem head_digits {ds : Bytes} (hds : isDigits ds = true) (tail : Bytes) :
    (ds ++ tail).head? ≠ some 45 := by
  simp only [isDigits, ne_eq, Bool.decide_and, Bool.and_eq_true, decide_eq_true_eq,
    List.all_eq_true] at hds
  obtain ⟨c, cs, rfl⟩ := List.exists_cons_of_ne_nil hds.1
  intro hc
  exact absurd (Option.some.inj hc ▸ hds.2 c (by simp)) (by decide)

/-- A number: an optional minus sign, digits, and what may follow them. -/
theorem isNumber_signed {ds tail : Bytes} (neg : Bool) (hds : isDigits ds = true)
    (htail : isNumberTail tail = true) : isNumber (signed neg (ds ++ tail)) = true := by
  have hdrop := dropMinus_signed neg (head_digits hds tail)
  simp only [isDigits, ne_eq, Bool.decide_and, Bool.and_eq_true, decide_eq_true_eq,
    List.all_eq_true] at hds
  obtain ⟨hne, hall⟩ := hds
  have hbody := takeWhile_digits hall (isNumberTail_takeWhile htail)
  rw [isNumber, hdrop, hbody.1, hbody.2]
  simp [hne, htail]

theorem isNumberTail_fraction {fs e : Bytes} (hfs : ∀ c ∈ fs, isDigit c = true) (hne : fs ≠ [])
    (he : e = [] ∨ isExponent e = true) : isNumberTail (46 :: fs ++ e) = true := by
  have hhead : e.takeWhile isDigit = [] := by
    rcases he with rfl | he
    · rfl
    · exact isExponent_takeWhile he
  have hbody := takeWhile_digits hfs hhead
  simp only [List.cons_append, isNumberTail, hbody.1, hbody.2]
  simp [hne, he]

theorem isNumberTail_fraction_append {fs e : Bytes} (hfs : ∀ c ∈ fs, isDigit c = true)
    (he : e = [] ∨ isExponent e = true) : isNumberTail (fraction fs ++ e) = true := by
  unfold fraction
  split
  · rcases he with rfl | he
    · rfl
    · exact isNumberTail_of_isExponent he
  · next hne =>
    exact isNumberTail_fraction (fun c hc => hfs c ((List.rdropWhile_prefix _ _).subset hc)) hne he

theorem isExponent_exponent (x : Int) : isExponent (exponent x) = true := by
  have hdigits : isDigits (if x.natAbs < 10 then 48 :: decimal x.natAbs else decimal x.natAbs) =
      true := by
    have h := decimal_digits x.natAbs
    split
    · simp only [isDigits, ne_eq, Bool.decide_and, Bool.and_eq_true, decide_eq_true_eq] at h
      simp only [isDigits, List.all_cons, h.2]
      rfl
    · exact h
  rw [exponent]
  split
  · exact hdigits
  · exact hdigits

theorem signed_append (neg : Bool) (s t : Bytes) : signed neg s ++ t = signed neg (s ++ t) := by
  cases neg <;> rfl

theorem isNumber_decimalInt (n : Int) : isNumber (decimalInt n) = true := by
  have := @isNumber_signed (decimal n.natAbs) [] (n < 0) (decimal_digits n.natAbs) rfl
  rwa [List.append_nil] at this

/-- An integer with the suffix of an integer field. -/
theorem isNumber_decimalInt_suffix (n : Int) : isNumber (decimalInt n ++ [105]) = true := by
  have := @isNumber_signed (decimal n.natAbs) [105] (n < 0) (decimal_digits n.natAbs) rfl
  rwa [decimalInt, signed_append]

theorem isNumberTail_general (p n d : Nat) :
    ∃ m tail, general p n d = decimal m ++ tail ∧ isNumberTail tail = true := by
  unfold general
  dsimp only
  split
  · refine ⟨_, _, rfl, ?_⟩
    have := isNumberTail_fraction_append (padded_digits
      ((p : Int) - 1 - (significant p n d).1).toNat ((significant p n d).2 %
        10 ^ ((p : Int) - 1 - (significant p n d).1).toNat)) (.inl rfl)
    rwa [List.append_nil] at this
  · rw [List.append_assoc]
    exact ⟨_, _, rfl, isNumberTail_fraction_append (padded_digits _ _)
      (.inr (isExponent_exponent _))⟩

/-- The text of an infinity or a NaN is a token, but not a number. -/
theorem nonfinite_text (neg : Bool) :
    (Token (signed neg (ascii "inf")) ∧ isNumber (signed neg (ascii "inf")) = false) ∧
      Token (signed neg (ascii "nan")) ∧ isNumber (signed neg (ascii "nan")) = false := by
  unfold Token
  cases neg <;> decide

theorem isNumber_formatG (p : Nat) (x : Binary64) : isNumber (formatG p x) = x.isFinite := by
  cases x with
  | finite neg mant scale =>
    obtain ⟨m, tail, hgen, htail⟩ := isNumberTail_general p (mant.val * 2 ^ scale.val) (2 ^ 1074)
    rw [formatG, hgen]
    exact isNumber_signed neg (decimal_digits m) htail
  | inf neg => exact (nonfinite_text neg).1.2
  | nan neg => exact (nonfinite_text neg).2.2

theorem isNumber_formatF {k : Nat} (hk : 0 < k) (x : Binary64) :
    isNumber (formatF k x) = x.isFinite := by
  cases x with
  | finite neg mant scale =>
    refine isNumber_signed neg (decimal_digits _) ?_
    have hne : ∀ n, padded k n ≠ [] := by
      intro n h
      have hlen := length_padded k n
      rw [h, List.length_nil] at hlen
      exact absurd hlen hk.ne
    have := isNumberTail_fraction (padded_digits k _) (hne (roundDiv
      (mant.val * 2 ^ scale.val * 10 ^ k) (2 ^ 1074) % 10 ^ k)) (.inl rfl)
    rwa [List.append_nil] at this
  | inf neg => exact (nonfinite_text neg).1.2
  | nan neg => exact (nonfinite_text neg).2.2

theorem nonfinite_plain (neg : Bool) :
    (∀ c ∈ signed neg (ascii "inf"), isSpecial c = false) ∧
      ∀ c ∈ signed neg (ascii "nan"), isSpecial c = false := by
  constructor <;> refine plain_of_all ?_ <;> cases neg <;> decide

theorem isNumber_plain {s : Bytes} (h : isNumber s = true) : ∀ c ∈ s, isSpecial c = false :=
  fun c hc => (isNumberByte_plain (isNumber_bytes h c hc)).1

theorem formatG_plain (p : Nat) (x : Binary64) : ∀ c ∈ formatG p x, isSpecial c = false := by
  have h := isNumber_formatG p x
  cases x with
  | finite neg mant scale => exact isNumber_plain h
  | inf neg => exact (nonfinite_plain neg).1
  | nan neg => exact (nonfinite_plain neg).2

theorem formatF_plain {k : Nat} (hk : 0 < k) (x : Binary64) :
    ∀ c ∈ formatF k x, isSpecial c = false := by
  have h := isNumber_formatF hk x
  cases x with
  | finite neg mant scale => exact isNumber_plain h
  | inf neg => exact (nonfinite_plain neg).1
  | nan neg => exact (nonfinite_plain neg).2

theorem formatG_token (p : Nat) (x : Binary64) : Token (formatG p x) := by
  have h := isNumber_formatG p x
  cases x with
  | finite neg mant scale => exact isNumber_token h
  | inf neg => exact (nonfinite_text neg).1.1
  | nan neg => exact (nonfinite_text neg).2.1

theorem formatF_token {k : Nat} (hk : 0 < k) (x : Binary64) : Token (formatF k x) := by
  have h := isNumber_formatF hk x
  cases x with
  | finite neg mant scale => exact isNumber_token h
  | inf neg => exact (nonfinite_text neg).1.1
  | nan neg => exact (nonfinite_text neg).2.1

end Printf
