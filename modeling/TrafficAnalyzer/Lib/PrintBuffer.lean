import TrafficAnalyzer.Lib.Bytes

/-!
# Bounded prints into the tail of a buffer

A text is assembled behind `base` by `snprintf(out + w, cap - w, …)` after
`snprintf(out + w, cap - w, …)`, and given up at the first print that does not fit. Every
print writes what fits of its text and a NUL, also the one that fails.

* `printAll_keeps`: no print touches the bytes before the place where it starts.
* `printAll_texts`: a chain that succeeds has put its texts one behind the other.
-/

namespace PrintBuffer

/-! ## The prints -/

/-- The bytes from `pos` on are overwritten by `s`. -/
def put (mem : Bytes) (pos : Nat) (s : Bytes) : Bytes :=
  mem.take pos ++ s ++ mem.drop (pos + s.length)

/-- What `snprintf(mem + pos, size, …)` leaves in memory, for this text. -/
def snprintf (mem : Bytes) (pos size : Nat) (text : Bytes) : Bytes :=
  if size = 0 then mem else put mem pos (text.take (size - 1) ++ [0])

/-- A chain of prints: each is made if its condition holds, and checked. `w` bytes are
written so far; the result is their number at the end, if no print failed. -/
def printAll (base cap : Nat) : List (Bool × Bytes) → Bytes → Nat → Bytes × Option Nat
  | [], mem, w => (mem, some w)
  | (false, _) :: ps, mem, w => printAll base cap ps mem w
  | (true, text) :: ps, mem, w =>
    let mem := snprintf mem (base + w) (cap - w) text
    if text.length = 0 ∨ text.length ≥ cap - w then (mem, none)
    else printAll base cap ps mem (w + text.length)

/-- The text that a chain adds. -/
def texts (cap : Nat) : List (Bool × Bytes) → Nat → Option Bytes
  | [], _ => some []
  | (false, _) :: ps, w => texts cap ps w
  | (true, text) :: ps, w =>
    if text.length = 0 ∨ text.length ≥ cap - w then none
    else (texts cap ps (w + text.length)).map (text ++ ·)

/-- The first `n` bytes of memory are as before. -/
structure Keeps (n : Nat) (mem mem' : Bytes) : Prop where
  size : mem'.length = mem.length
  front : mem'.take n = mem.take n

variable {mem mem' mem'' s text : Bytes} {pos n m size base cap w w' : Nat}
  {ps : List (Bool × Bytes)}

theorem Keeps.refl (n : Nat) (mem : Bytes) : Keeps n mem mem := ⟨rfl, rfl⟩

theorem Keeps.trans (h : Keeps n mem mem') (h' : Keeps n mem' mem'') : Keeps n mem mem'' :=
  ⟨h'.size.trans h.size, h'.front.trans h.front⟩

theorem Keeps.mono (h : Keeps n mem mem') (hm : m ≤ n) : Keeps m mem mem' := by
  refine ⟨h.size, ?_⟩
  rw [← Nat.min_eq_left hm, ← List.take_take, h.front, List.take_take]

/-! ## One print -/

theorem put_keeps (h : pos + s.length ≤ mem.length) : Keeps pos mem (put mem pos s) := by
  have hpos : (mem.take pos).length = pos := List.length_take_of_le (by omega)
  constructor
  · rw [put, List.length_append, List.length_append, hpos, List.length_drop]
    exact Nat.add_sub_cancel' h
  · rw [put, List.append_assoc, List.take_left' hpos]

theorem put_take (h : pos ≤ mem.length) :
    (put mem pos s).take (pos + s.length) = mem.take pos ++ s := by
  have hlen : (mem.take pos ++ s).length = pos + s.length := by
    rw [List.length_append, List.length_take_of_le h]
  rw [put, List.take_left' hlen]

theorem snprintf_keeps (h : pos + size ≤ mem.length) :
    Keeps pos mem (snprintf mem pos size text) := by
  unfold snprintf
  split
  · exact .refl pos mem
  · next hsize =>
    refine put_keeps ?_
    have hcut : (text.take (size - 1)).length ≤ size - 1 := List.length_take_le _ _
    rw [List.length_append, List.length_singleton]
    omega

/-- A text that fits is in memory behind the bytes before it. -/
theorem snprintf_take (hmem : pos + size ≤ mem.length) (hfit : text.length < size) :
    (snprintf mem pos size text).take (pos + text.length) = mem.take pos ++ text := by
  have hall : text.take (size - 1) = text := List.take_of_length_le (by omega)
  rw [snprintf, if_neg (by omega), hall]
  have hput : (put mem pos (text ++ [0])).take (pos + (text ++ [0]).length) =
      mem.take pos ++ (text ++ [0]) := put_take (by omega)
  have hlen : (mem.take pos ++ text).length = pos + text.length := by
    rw [List.length_append, List.length_take_of_le (by omega)]
  calc (put mem pos (text ++ [0])).take (pos + text.length)
      = ((put mem pos (text ++ [0])).take (pos + (text ++ [0]).length)).take
          (pos + text.length) := by
        rw [List.take_take, Nat.min_eq_left]
        simp
    _ = mem.take pos ++ text := by
        rw [hput, ← List.append_assoc, List.take_left' hlen]

/-! ## A chain -/

/-- Also a chain that fails leaves the bytes before its start alone. -/
theorem printAll_keeps (h : base + cap ≤ mem.length) (hw : w ≤ cap) :
    Keeps (base + w) mem (printAll base cap ps mem w).1 := by
  induction ps generalizing mem w with
  | nil => exact .refl _ mem
  | cons p ps ih =>
    obtain ⟨c, text⟩ := p
    cases c with
    | false => exact ih h hw
    | true =>
      have hprint : Keeps (base + w) mem (snprintf mem (base + w) (cap - w) text) :=
        snprintf_keeps (by omega)
      rw [printAll]
      split
      · exact hprint
      · next hfit =>
        have hrest := @ih (snprintf mem (base + w) (cap - w) text) (w + text.length)
          (hprint.size ▸ h) (by omega)
        exact hprint.trans (hrest.mono (by omega))

/-- The number of bytes that a chain answers with is that of its texts. -/
theorem printAll_snd : (printAll base cap ps mem w).2 = (texts cap ps w).map (w + ·.length) := by
  induction ps generalizing mem w with
  | nil => rfl
  | cons p ps ih =>
    obtain ⟨c, text⟩ := p
    cases c with
    | false => exact ih
    | true =>
      rw [printAll, texts]
      split
      · rfl
      · rw [ih, Option.map_map]
        congr 1
        funext t
        rw [Function.comp_apply, List.length_append, Nat.add_assoc]

/-- The texts of a chain that succeeds stand in memory behind the bytes before its start. -/
theorem printAll_texts (h : base + cap ≤ mem.length) (hw : w ≤ cap)
    (htext : texts cap ps w = some text) :
    (printAll base cap ps mem w).1.take (base + w + text.length) =
      mem.take (base + w) ++ text := by
  induction ps generalizing mem w text with
  | nil =>
    cases htext
    rw [List.append_nil]
    rfl
  | cons p ps ih =>
    obtain ⟨c, t⟩ := p
    cases c with
    | false => exact ih h hw htext
    | true =>
      rw [texts] at htext
      split at htext
      · cases htext
      · next hfit =>
        obtain ⟨rest, hrest, rfl⟩ := Option.map_eq_some_iff.mp htext
        have hprint : Keeps (base + w) mem (snprintf mem (base + w) (cap - w) t) :=
          snprintf_keeps (by omega)
        have hchain := @ih (snprintf mem (base + w) (cap - w) t) rest (w + t.length)
          (hprint.size ▸ h) (by omega) hrest
        rw [printAll, if_neg hfit, List.length_append, ← Nat.add_assoc, Nat.add_assoc base w,
          hchain, ← Nat.add_assoc, snprintf_take (by omega) (by omega), List.append_assoc]

end PrintBuffer
