import Mathlib.Data.List.Induction
import Mathlib.Tactic.Ring
import TrafficAnalyzer.Lib.Double
import TrafficAnalyzer.Lib.LineTokens

/-!
# Text functions of the C library

`isspace`, `strchr`, `strrchr`, `strncpy`, `strtol` and `atoi` on byte strings, in the C
locale, for a `long` of 64 bits and an `int` of 32. `leadingInt` is the number that a text
starts with, without bounds; `strtol` saturates it and `atoi` keeps the low 32 bits of what
`strtol` answers.
-/

namespace CText

open LineProtocol (isDigit isDigits)

/-- `isspace`. -/
def isSpace (c : UInt8) : Bool := c = 32 ∨ (9 ≤ c ∧ c ≤ 13)

/-! ## `strchr` -/

/-- The text before the first `c` and, if there is one, the text after it. -/
def splitFirst (c : UInt8) (s : Bytes) : Bytes × Option Bytes :=
  (s.takeWhile (· ≠ c), if c ∈ s then some (s.dropWhile (· ≠ c)).tail else none)

theorem splitFirst_absent {c : UInt8} {s : Bytes} (h : c ∉ s) : splitFirst c s = (s, none) := by
  have hall : s.takeWhile (· ≠ c) = s := List.takeWhile_eq_self_iff.mpr fun d hd =>
    decide_eq_true fun he => h (he ▸ hd)
  rw [splitFirst, hall, if_neg h]

theorem splitFirst_append {c : UInt8} {a t : Bytes} (h : c ∉ a) :
    splitFirst c (a ++ c :: t) = (a, some t) := by
  have hall : ∀ d ∈ a, decide (d ≠ c) = true := fun d hd => decide_eq_true fun he => h (he ▸ hd)
  rw [splitFirst, List.takeWhile_append_of_pos hall, List.dropWhile_append_of_pos hall]
  simp

/-- A text either has no `c` or is split at its first one. -/
theorem splitFirst_cases (c : UInt8) (s : Bytes) :
    (c ∉ s ∧ splitFirst c s = (s, none)) ∨
      ∃ a t, c ∉ a ∧ s = a ++ c :: t ∧ splitFirst c s = (a, some t) := by
  rcases Decidable.em (c ∈ s) with h | h
  · obtain ⟨a, t, rfl, ha⟩ := List.eq_append_cons_of_mem h
    exact .inr ⟨a, t, ha, rfl, splitFirst_append ha⟩
  · exact .inl ⟨h, splitFirst_absent h⟩

/-! ## `strrchr` -/

/-- The text before the last `c`, if there is one. -/
def beforeLast (c : UInt8) (s : Bytes) : Option Bytes :=
  if c ∈ s then some (s.reverse.dropWhile (· ≠ c)).tail.reverse else none

theorem beforeLast_append {c : UInt8} {a t : Bytes} (h : c ∉ t) :
    beforeLast c (a ++ c :: t) = some a := by
  have hall : ∀ d ∈ t.reverse, decide (d ≠ c) = true := fun d hd => decide_eq_true fun he =>
    h (he ▸ List.mem_reverse.mp hd)
  have hrev : (a ++ c :: t).reverse = t.reverse ++ c :: a.reverse := by simp
  rw [beforeLast, if_pos (by simp), hrev, List.dropWhile_append_of_pos hall]
  simp

/-! ## `strncpy` -/

/-- The text that `strncpy` leaves in a zeroed array with room for `n` characters and the
terminator. -/
def strncpy (n : Nat) (s : Bytes) : Bytes := (cString s).take n

theorem strncpy_of_fits {n : Nat} {s : Bytes} (h0 : (0 : UInt8) ∉ s) (hn : s.length ≤ n) :
    strncpy n s = s := by
  rw [strncpy, cString_of_nul h0, List.take_of_length_le hn]

/-- A copy that has room to spare is not cut. -/
theorem take_eq_iff {n : Nat} {s t : Bytes} (ht : t.length < n) : s.take n = t ↔ s = t := by
  rcases Nat.lt_or_ge n s.length with hlong | hfits
  · refine iff_of_false (fun h => ?_) (fun h => ?_)
    · rw [← h, List.length_take, Nat.min_eq_left (Nat.le_of_lt hlong)] at ht
      exact Nat.lt_irrefl n ht
    · exact Nat.lt_asymm hlong (h ▸ ht)
  · rw [List.take_of_length_le hfits]

/-! ## `strtol` and `atoi` -/

/-- The value of a text of digits. -/
def digitsValue (s : Bytes) : Nat := s.foldl (fun n c => 10 * n + (c.toNat - 48)) 0

/-- An optional sign: whether it is a minus, and the text after it. -/
def signOf : Bytes → Bool × Bytes
  | 45 :: s => (true, s)
  | 43 :: s => (false, s)
  | s => (false, s)

/-- The number at the start of a text: white space, a sign, digits. Without digits it is 0. -/
def leadingInt (s : Bytes) : Int :=
  let (minus, s) := signOf (s.dropWhile isSpace)
  let n : Int := digitsValue (s.takeWhile isDigit)
  if minus then -n else n

/-- `strtol(s, NULL, 10)`. -/
def strtol (s : Bytes) : Int := max (-2 ^ 63) (min (2 ^ 63 - 1) (leadingInt s))

/-- `atoi`: the value of `strtol`, converted to an `int`. -/
def atoi (s : Bytes) : Int := wrap32 (strtol s)

theorem digitsValue_append (a b : Bytes) :
    digitsValue (a ++ b) = digitsValue a * 10 ^ b.length + digitsValue b := by
  induction b using List.reverseRecOn with
  | nil => simp [digitsValue]
  | append_singleton b c ih =>
    have hsnoc : ∀ s : Bytes, digitsValue (s ++ [c]) = 10 * digitsValue s + (c.toNat - 48) :=
      fun s => by simp [digitsValue]
    rw [← List.append_assoc, hsnoc, hsnoc, ih, List.length_append, List.length_singleton, pow_succ]
    ring

/-- Cutting digits off keeps the value only if nothing is cut off or the value is 0. -/
theorem digitsValue_take {s : Bytes} (n : Nat) :
    digitsValue (s.take n) ≤ digitsValue s ∧
      (digitsValue (s.take n) = digitsValue s ↔ s.length ≤ n ∨ digitsValue s = 0) := by
  have hsplit := digitsValue_append (s.take n) (s.drop n)
  rw [List.take_append_drop] at hsplit
  have hle : digitsValue (s.take n) ≤ digitsValue (s.take n) * 10 ^ (s.drop n).length :=
    Nat.le_mul_of_pos_right _ (Nat.pow_pos (by decide))
  refine ⟨by omega, fun h => ?_, ?_⟩
  · rcases Nat.lt_or_ge n s.length with hcut | hfits
    · -- a cut multiplies the value of the rest by ten at least
      have hpos : 1 ≤ (s.drop n).length := by rw [List.length_drop]; omega
      have hten : 10 ^ 1 ≤ 10 ^ (s.drop n).length := Nat.pow_le_pow_right (by decide) hpos
      have := Nat.mul_le_mul_left (digitsValue (s.take n)) hten
      exact .inr (by omega)
    · exact .inl hfits
  · rintro (hfits | hzero)
    · rw [List.take_of_length_le hfits]
    · omega

theorem leadingInt_digits {s : Bytes} (h : isDigits s = true) : leadingInt s = digitsValue s := by
  obtain ⟨hne, hall⟩ : s ≠ [] ∧ ∀ c ∈ s, isDigit c = true := by
    simpa [isDigits] using h
  obtain ⟨c, t, rfl⟩ := List.exists_cons_of_ne_nil hne
  have hc := hall c (List.mem_cons_self ..)
  have hspace : isSpace c = false := by
    simp only [isDigit, decide_eq_true_eq, UInt8.le_iff_toNat_le] at hc
    simp only [isSpace, decide_eq_false_iff_not, UInt8.le_iff_toNat_le]
    rintro (rfl | ⟨_, hle⟩)
    · exact absurd hc.1 (by decide)
    · exact absurd (Nat.le_trans hc.1 hle) (by decide)
  have hsign : signOf (c :: t) = (false, c :: t) := by
    unfold signOf
    split
    · next he => exact absurd ((List.cons.inj he).1 ▸ hc) (by decide)
    · next he => exact absurd ((List.cons.inj he).1 ▸ hc) (by decide)
    · rfl
  have htake : (c :: t).takeWhile isDigit = c :: t := List.takeWhile_eq_self_iff.mpr hall
  simp only [leadingInt, List.dropWhile_cons, hspace, Bool.false_eq_true, ↓reduceIte, hsign, htake]

/-- Digits of a small value are read as that value. -/
theorem atoi_digits {s : Bytes} (h : isDigits s = true) (hlt : digitsValue s < 2 ^ 31) :
    atoi s = digitsValue s := by
  rw [atoi, strtol, leadingInt_digits h, wrap32]
  omega

/-- The texts that `atoi` reads as a number between 0 and `k`, by the number they start
with: below the range of `long` it is read as 0, above it as -1. -/
theorem atoi_range {s : Bytes} {k : Nat} (hk : k < 2 ^ 31) :
    (0 ≤ atoi s ∧ atoi s ≤ k) ↔
      leadingInt s < -2 ^ 63 ∨ (leadingInt s < 2 ^ 63 ∧ leadingInt s % 2 ^ 32 ≤ k) := by
  rw [atoi, strtol, wrap32]
  omega

end CText
