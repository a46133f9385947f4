import Mathlib.Data.List.Count
import Mathlib.Data.List.Induction
import TrafficAnalyzer.Lib.Double

/-!
# An alarm on a counter that wraps

The elements of a list that satisfy `p` are counted in a C `int`, and each of them raises
an alarm when the counter has reached a bound. The alarm keeps sounding exactly as long as
the counter does not wrap (`keeps_iff`).
-/

namespace WrapCount

variable {α : Type} {p : α → Bool}

theorem wrap32_zero : wrap32 0 = 0 := wrap32_of_bounds (by decide) (by decide)

theorem wrap32_succ (n : Int) : inc32 (wrap32 n) = wrap32 (n + 1) := by
  unfold inc32 wrap32
  omega

/-- The element that `k` elements satisfying `p` come before. -/
theorem exists_split {k : Nat} {xs : List α} (h : k < xs.countP p) :
    ∃ pre a post, xs = pre ++ a :: post ∧ p a = true ∧ pre.countP p = k := by
  induction xs using List.reverseRecOn with
  | nil => cases h
  | append_singleton xs x ih =>
    rcases Nat.lt_or_ge k (xs.countP p) with hlt | hge
    · obtain ⟨pre, a, post, rfl, ha, hk⟩ := ih hlt
      exact ⟨pre, a, post ++ [x], by simp, ha, hk⟩
    · rw [List.countP_append, List.countP_singleton] at h
      split at h
      · next hx => exact ⟨xs, x, [], rfl, hx, by omega⟩
      · exact absurd h (Nat.not_lt.mpr hge)

/-- Once an element has raised the alarm, every later one does. -/
def Keeps (p : α → Bool) (alarm : α → Prop) (xs : List α) : Prop :=
  ∀ pre a mid b post, xs = pre ++ a :: (mid ++ b :: post) → p a = true → p b = true →
    alarm a → alarm b

/-- When the counter starts at 0, the alarm keeps sounding exactly as long as fewer than
`2 ^ 31` elements are counted. -/
theorem keeps_iff {alarm : α → Prop} {bound : Int} (h1 : 1 ≤ bound) (h2 : bound < 2 ^ 31)
    {xs : List α} (halarm : ∀ pre a post, xs = pre ++ a :: post → p a = true →
      (alarm a ↔ bound ≤ wrap32 (pre.countP p + 1))) :
    Keeps p alarm xs ↔ xs.countP p < 2 ^ 31 := by
  constructor
  · intro hkeeps
    by_contra hmany
    -- the element that makes the counter negative, and one before it at the bound
    obtain ⟨pre, b, post, rfl, hb, hcount⟩ :=
      exists_split (k := 2 ^ 31 - 1) (Nat.lt_of_lt_of_le (by decide) (Nat.le_of_not_lt hmany))
    have hbound : (bound - 1).toNat < pre.countP p := by omega
    obtain ⟨first, a, mid, rfl, ha, hfirst⟩ := exists_split hbound
    have hsplit : (first ++ a :: mid) ++ b :: post = first ++ a :: (mid ++ b :: post) := by simp
    have halarma : alarm a := by
      refine (halarm first a _ hsplit ha).mpr ?_
      rw [wrap32_of_bounds] <;> omega
    have halarmb := (halarm _ b post rfl hb).mp (hkeeps first a mid b post hsplit ha hb halarma)
    rw [hcount] at halarmb
    unfold wrap32 at halarmb
    omega
  · rintro hfew pre a mid b post rfl ha hb halarma
    have hsplit : pre ++ a :: (mid ++ b :: post) = (pre ++ a :: mid) ++ b :: post := by simp
    have hle := (halarm pre a _ rfl ha).mp halarma
    refine (halarm _ b post hsplit hb).mpr ?_
    rw [hsplit] at hfew
    simp only [List.countP_append, List.countP_cons, ha, hb, ↓reduceIte] at hfew ⊢
    rw [wrap32_of_bounds] at hle ⊢ <;> omega

end WrapCount
