import Mathlib.Data.List.DropRight
import Mathlib.Data.List.Forall2
import Mathlib.Data.List.TakeDrop

/-!
# Scanning a buffer in place

Code that walks over a buffer with a pointer and a number of places left. A pointer is an
offset, and a read outside the buffer has no result.

* `scan_eq`, `scanBack_eq`: the two loops over a stretch of the buffer, as functions of the
  stretch.
* `forLines_eq`: the loop over the lines of a buffer is a fold over the lines.
-/

namespace Spans

variable {α σ : Type}

/-- The `n` places from `p` on. -/
def span (buf : List α) (p n : Nat) : List α := (buf.drop p).take n

/-- `while (n && q(*p)) { p++; n--; }`: the number of places passed. -/
def scan (q : α → Bool) (buf : List α) : Nat → Nat → Option Nat
  | _, 0 => some 0
  | p, n + 1 => do
    let c ← buf[p]?
    if q c then (scan q buf (p + 1) n).map (· + 1) else some 0

/-- `while (n && q(p[n - 1])) n--;`: the number of places left. -/
def scanBack (q : α → Bool) (buf : List α) (p : Nat) : Nat → Option Nat
  | 0 => some 0
  | n + 1 => do
    let c ← buf[p + n]?
    if q c then scanBack q buf p n else some (n + 1)

/-- `n` places that are copied. -/
def read (buf : List α) (p n : Nat) : Option (List α) :=
  if p + n ≤ buf.length then some (span buf p n) else none

/-- The distance of two pointers; a negative one leads out of the buffer. -/
def distance (q p : Nat) : Option Nat := if p ≤ q then some (q - p) else none

/-- The loop over the lines in the `n` places from `p` on, which end with an `e`. The body gets
the beginning and the length of a line, and tells whether the loop is left. -/
def forLines [DecidableEq α] (e : α) (buf : List α) (body : Nat → Nat → σ → Option (σ × Bool))
    (p n : Nat) (s : σ) : Option σ :=
  if n = 0 then some s
  else do
    let len ← scan (· ≠ e) buf p n
    let r ← body p len s
    if r.2 then some r.1
    else if len < n then forLines e buf body (p + len + 1) (n - (len + 1)) r.1
    else some r.1
termination_by n

/-- A fold that can be left. -/
def foldStop (g : σ → List α → σ × Bool) (s : σ) : List (List α) → σ
  | [] => s
  | l :: ls => if (g s l).2 then (g s l).1 else foldStop g (g s l).1 ls

variable {q : α → Bool} {buf : List α} {p n : Nat}

/-! ## Stretches -/

theorem length_span (h : p + n ≤ buf.length) : (span buf p n).length = n := by
  rw [span, List.length_take, List.length_drop]
  omega

theorem span_succ (h : p < buf.length) : span buf p (n + 1) = buf[p] :: span buf (p + 1) n := by
  rw [span, List.drop_eq_getElem_cons h, List.take_succ_cons, span]

theorem span_snoc (h : p + n < buf.length) : span buf p (n + 1) = span buf p n ++ [buf[p + n]] := by
  have hn : n < (buf.drop p).length := by
    rw [List.length_drop]
    omega
  rw [span, List.take_succ_eq_append_getElem hn, List.getElem_drop, span]

theorem span_drop (buf : List α) (p n k : Nat) :
    (span buf p n).drop k = span buf (p + k) (n - k) := by
  rw [span, List.drop_take, List.drop_drop, span]

theorem span_take (buf : List α) (p n k : Nat) : (span buf p n).take k = span buf p (min k n) := by
  rw [span, List.take_take, span]

theorem span_all (buf : List α) : span buf 0 buf.length = buf := by
  rw [span, List.drop_zero, List.take_length]

/-- The end of a stretch is found by its length. -/
theorem span_suffix {v : List α} (h : p + n ≤ buf.length) (hv : v <:+ span buf p n) :
    span buf (p + (n - v.length)) v.length = v := by
  obtain ⟨u, hu⟩ := hv
  have hlen := congrArg List.length hu
  rw [List.length_append, length_span h] at hlen
  have hbefore : n - v.length = u.length := by omega
  have hrest : n - u.length = v.length := by omega
  rw [hbefore, ← hrest, ← span_drop, ← hu, List.drop_left]

/-! ## The scans -/

theorem scan_eq (h : p + n ≤ buf.length) :
    scan q buf p n = some ((span buf p n).takeWhile q).length := by
  induction n generalizing p with
  | zero => rfl
  | succ n ih =>
    have hp : p < buf.length := by omega
    rw [scan, List.getElem?_eq_getElem hp, span_succ hp, List.takeWhile_cons]
    cases hq : q buf[p] with
    | false => simp [hq]
    | true => simp [hq, ih (p := p + 1) (by omega)]

theorem scanBack_eq (h : p + n ≤ buf.length) :
    scanBack q buf p n = some ((span buf p n).rdropWhile q).length := by
  induction n with
  | zero => rfl
  | succ n ih =>
    have hp : p + n < buf.length := by omega
    rw [scanBack, List.getElem?_eq_getElem hp, span_snoc hp, List.rdropWhile_concat]
    cases hq : q buf[p + n] with
    | false => simp [hq, length_span (Nat.le_of_lt hp)]
    | true => simp [hq, ih (Nat.le_of_lt hp)]

theorem read_eq (h : p + n ≤ buf.length) : read buf p n = some (span buf p n) := if_pos h

theorem takeWhile_length (q : α → Bool) (l : List α) :
    (l.takeWhile q).length = l.length - (l.dropWhile q).length := by
  have hlen := congrArg List.length (List.takeWhile_append_dropWhile (p := q) (l := l))
  rw [List.length_append] at hlen
  omega

/-! ## Lines -/

/-- A fold that does not tell two lists of lines apart. -/
theorem foldStop_congr {g : σ → List α → σ × Bool} {ls ms : List (List α)}
    (h : List.Forall₂ (fun l m => ∀ s, g s m = g s l) ls ms) (s : σ) :
    foldStop g s ms = foldStop g s ls := by
  induction h generalizing s with
  | nil => rfl
  | cons hline _ ih => rw [foldStop, foldStop, hline, ih]

/-- A fold that is never left. -/
theorem foldStop_eq_foldl (f : σ → List α → σ) (s : σ) (ls : List (List α)) :
    foldStop (fun s l => (f s l, false)) s ls = ls.foldl f s := by
  induction ls generalizing s with
  | nil => rfl
  | cons l ls ih => exact ih (f s l)

section Lines

variable [DecidableEq α] {e : α} {body : Nat → Nat → σ → Option (σ × Bool)}
  {g : σ → List α → σ × Bool}

/-- The stretch up to the first `e`, as the loop finds it. -/
theorem first_line (h : p + n ≤ buf.length) :
    (scan (· ≠ e) buf p n = some n ∧ (span buf p n).splitOn e = [span buf p n]) ∨
      ∃ k < n, scan (· ≠ e) buf p n = some k ∧
        (span buf p n).splitOn e =
          span buf p k :: (span buf (p + k + 1) (n - (k + 1))).splitOn e := by
  have hscan : scan (· ≠ e) buf p n = _ := scan_eq h
  have hlen := length_span h
  rcases Decidable.em (e ∈ span buf p n) with hmem | hmem
  · obtain ⟨l, t, hspan, hl⟩ := List.eq_append_cons_of_mem hmem
    have hall : ∀ c ∈ l, decide (c ≠ e) = true := fun c hc => decide_eq_true fun he => hl (he ▸ hc)
    have hfirst : span buf p l.length = l := by
      have htake := span_take buf p n l.length
      rw [hspan, List.take_left] at htake
      have hle : l.length ≤ n := by
        rw [← hlen, hspan, List.length_append]
        exact Nat.le_add_right _ _
      exact (htake.trans (by rw [Nat.min_eq_left hle])).symm
    have hrest : span buf (p + l.length + 1) (n - (l.length + 1)) = t := by
      have hdrop := span_drop buf p n (l.length + 1)
      rw [← Nat.add_assoc] at hdrop
      rw [← hdrop, hspan, List.drop_length_add_append]
      rfl
    refine .inr ⟨l.length, ?_, ?_, ?_⟩
    · rw [← hlen, hspan, List.length_append, List.length_cons]
      omega
    · rw [hscan, hspan, List.takeWhile_append_of_pos hall]
      simp
    · rw [hfirst, hrest, hspan, List.splitOn_append_cons_self_of_not_mem hl]
  · have hall : (span buf p n).takeWhile (· ≠ e) = span buf p n :=
      List.takeWhile_eq_self_iff.mpr fun c hc => decide_eq_true fun he => hmem (he ▸ hc)
    refine .inl ⟨?_, List.splitOn_eq_singleton hmem⟩
    rw [hscan, hall, hlen]

/-- The loop over the lines is a fold over them, when an empty line changes nothing. -/
theorem forLines_eq (hbody : ∀ p n s, p + n ≤ buf.length → body p n s = some (g s (span buf p n)))
    (hnil : ∀ s, g s [] = (s, false)) (h : p + n ≤ buf.length) (s : σ) :
    forLines e buf body p n s = some (foldStop g s ((span buf p n).splitOn e)) := by
  induction n using Nat.strongRecOn generalizing p s with
  | ind n ih =>
    rw [forLines]
    split
    · next hn =>
      subst hn
      simp [span, foldStop, hnil]
    · rcases first_line h with ⟨hscan, hsplit⟩ | ⟨k, hk, hscan, hsplit⟩
      · rw [hscan, Option.bind_eq_bind, Option.bind_some, hbody p n s h, Option.bind_eq_bind,
          Option.bind_some, hsplit, foldStop]
        simp [foldStop]
      · rw [hscan, Option.bind_eq_bind, Option.bind_some, hbody p k s (by omega),
          Option.bind_eq_bind, Option.bind_some, hsplit, foldStop, if_pos hk,
          ih (n - (k + 1)) (by omega) (by omega)]
        split <;> rfl

end Lines

end Spans
