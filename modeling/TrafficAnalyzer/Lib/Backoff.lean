import Mathlib.Algebra.Order.Group.Int
import Mathlib.Algebra.Order.Ring.Int
import Mathlib.Data.List.DropRight
import Mathlib.Data.List.Induction
import TrafficAnalyzer.Lib.Lts

/-!
# Capped exponential backoff

After each failed attempt the delay doubles up to a cap, and the next attempt waits for the
delay before the doubling; a success resets the delay and nothing else. The state is a fold
over the attempts, and the number of failures since the last success gives it in closed form.
-/

namespace Backoff

/-- One attempt: when it started and whether it succeeded. -/
structure Attempt where
  start : Int
  ok : Bool
deriving DecidableEq, Repr

/-- The least and the greatest delay. -/
structure Policy where
  base : Int
  cap : Int
  base_nonneg : 0 ≤ base
  base_le : base ≤ cap

/-- The time before which no attempt starts, and the delay after the next failure. -/
structure Retry where
  next : Int
  delay : Int
deriving DecidableEq, Repr

variable (P : Policy)

def Policy.double (d : Int) : Int := if d * 2 > P.cap then P.cap else d * 2

/-- What an attempt leaves. -/
def Policy.after (r : Retry) (a : Attempt) : Retry :=
  if a.ok then { r with delay := P.base } else ⟨a.start + r.delay, P.double r.delay⟩

/-- The delay after `k` failures in a row. -/
def Policy.delay (k : Nat) : Int := min (P.base * 2 ^ k) P.cap

/-- The failures since the last success. -/
def failures (as : List Attempt) : Nat := (as.rtakeWhile (!·.ok)).length

theorem failures_snoc (as : List Attempt) (a : Attempt) :
    failures (as ++ [a]) = if a.ok then 0 else failures as + 1 := by
  unfold failures
  rw [List.rtakeWhile_concat]
  cases a.ok <;> simp

theorem Policy.delay_zero : P.delay 0 = P.base := by
  rw [delay, pow_zero, mul_one, min_eq_left P.base_le]

theorem Policy.double_delay (k : Nat) : P.double (P.delay k) = P.delay (k + 1) := by
  have hbase := P.base_nonneg
  have hcap := P.base_le
  unfold double delay
  rw [pow_succ, ← mul_assoc]
  rcases le_total (P.base * 2 ^ k) P.cap with h | h
  · rw [min_eq_left h]
    split
    · next hgt => rw [min_eq_right (Int.le_of_lt hgt)]
    · next hle => rw [min_eq_left (Int.not_lt.mp hle)]
  · rw [min_eq_right h, min_eq_right (by omega)]
    split <;> omega

/-- The delay of a fold over the attempts. -/
theorem Policy.foldl_delay {r0 : Retry} (h0 : r0.delay = P.base) (as : List Attempt) :
    (as.foldl P.after r0).delay = P.delay (failures as) := by
  induction as using List.reverseRecOn with
  | nil => exact h0.trans P.delay_zero.symm
  | append_singleton as a ih =>
    rw [List.foldl_append, List.foldl_cons, List.foldl_nil, failures_snoc, after]
    cases a.ok with
    | true => exact P.delay_zero.symm
    | false =>
      rw [if_neg Bool.false_ne_true, if_neg Bool.false_ne_true, ih]
      exact P.double_delay _

/-- After a failure the next attempt waits for the delay that the failures before it give. -/
theorem Policy.foldl_next {r0 : Retry} (h0 : r0.delay = P.base) {as : List Attempt} {a : Attempt}
    (ha : a.ok = false) :
    ((as ++ [a]).foldl P.after r0).next = a.start + P.delay (failures as) := by
  rw [List.foldl_append, List.foldl_cons, List.foldl_nil, after, ha, if_neg Bool.false_ne_true,
    P.foldl_delay h0]

/-! ## Pacing -/

/-- Every attempt starts when the attempts before it allow it. -/
def Policy.Paced (r0 : Retry) (as : List Attempt) : Prop :=
  ∀ pre a post, as = pre ++ a :: post → (pre.foldl P.after r0).next ≤ a.start

theorem Policy.paced_nil {r0 : Retry} : P.Paced r0 [] :=
  fun pre a post he => by simp at he

theorem Policy.paced_snoc {r0 : Retry} {as : List Attempt} {a : Attempt} :
    P.Paced r0 (as ++ [a]) ↔ P.Paced r0 as ∧ (as.foldl P.after r0).next ≤ a.start :=
  Lts.forall_split_snoc (Q := fun pre a => (pre.foldl P.after r0).next ≤ a.start)

variable {P}

/-- Between the start of a failed attempt, the `(k + 1)`-th in a row, and the start of the next
one lies the delay after `k` failures. -/
theorem Policy.Paced.spacing {r0 : Retry} (h0 : r0.delay = P.base) {as pre post : List Attempt}
    {a b : Attempt} {k : Nat} (h : P.Paced r0 as) (he : as = pre ++ a :: b :: post)
    (hk : failures (pre ++ [a]) = k + 1) : a.start + P.delay k ≤ b.start := by
  rw [failures_snoc] at hk
  split at hk
  · omega
  · next ha =>
    obtain rfl : failures pre = k := Nat.succ.inj hk
    rw [← P.foldl_next h0 (Bool.eq_false_iff.mpr ha)]
    exact h (pre ++ [a]) b post (by simp [he])

end Backoff
