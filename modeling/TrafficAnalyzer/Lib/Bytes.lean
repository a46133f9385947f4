import Mathlib.Data.List.TakeWhile

/-!
# Byte strings
-/

abbrev Bytes := List UInt8

/-- The bytes of an ASCII text. -/
def ascii (s : String) : Bytes := s.toList.map fun c => UInt8.ofNat c.toNat

theorem ascii_append (s t : String) : ascii (s ++ t) = ascii s ++ ascii t := by
  simp [ascii]

/-- The bytes that a C function sees behind a `char *`: up to the first NUL. -/
def cString (s : Bytes) : Bytes := s.takeWhile (· ≠ 0)

theorem cString_nul (s : Bytes) : (0 : UInt8) ∉ cString s := by
  intro h
  simpa using List.mem_takeWhile_imp h

theorem cString_of_nul {s : Bytes} (h : (0 : UInt8) ∉ s) : cString s = s := by
  refine List.takeWhile_eq_self_iff.mpr fun c hc => decide_eq_true ?_
  rintro rfl
  exact h hc

/-- Nothing behind a NUL is seen. -/
theorem cString_append_nul (s t : Bytes) : cString (s ++ 0 :: t) = cString s := by
  induction s with
  | nil => rfl
  | cons c s ih =>
    rw [cString] at ih ⊢
    rw [cString, List.cons_append, List.takeWhile_cons, List.takeWhile_cons, ih]
    rfl
