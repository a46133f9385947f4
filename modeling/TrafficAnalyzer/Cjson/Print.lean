import TrafficAnalyzer.Cjson.Text

/-!
# The JSON printer (`third_party/cjson/cJSON.c`)

A `printbuffer` is a block of bytes with an offset. `ensure` makes it longer, every byte that is
written has to lie inside it, and so does every byte that `strlen` reads, which must have been
written before. Memory is always there, so `ensure` fails only where a size exceeds `INT_MAX`.

* `print_eq`: the printer stays inside its block, and its result is the text of the value,
  or `NULL` where that text is too long.
-/

namespace TrafficAnalyzer.Cjson

/-- A `printbuffer`; `none` is a byte that was never written. -/
structure Printbuffer where
  buffer : List (Option UInt8)
  offset : Nat
  depth : Nat

/-- What a print function leaves behind: `none` after an access outside the block, `some none` for
the answer `false`. -/
abbrev Printed := Option (Option Printbuffer)

def Printed.bind (r : Printed) (k : Printbuffer → Printed) : Printed :=
  match r with
  | none => none
  | some none => some none
  | some (some p) => k p

namespace Printbuffer

/-- `realloc` to a larger block. -/
def grow (p : Printbuffer) (newsize : Nat) : Printbuffer :=
  { p with buffer := p.buffer ++ List.replicate (newsize - p.buffer.length) none }

/-- `ensure`; `none` is the answer `NULL`. -/
def ensure (p : Printbuffer) (needed : Nat) : Option Printbuffer :=
  let length := p.buffer.length
  if 0 < length ∧ length ≤ p.offset then none
  else if INT_MAX.toNat < needed then none
  else
    let needed := needed + p.offset + 1
    if needed ≤ length then some p
    else if INT_MAX.toNat / 2 < needed then
      if needed ≤ INT_MAX.toNat then some (p.grow INT_MAX.toNat) else none
    else some (p.grow (needed * 2))

/-- Bytes that are written from the place `i` behind the offset on. -/
def write (p : Printbuffer) (i : Nat) (s : Bytes) : Option Printbuffer :=
  let start := p.offset + i
  if start + s.length ≤ p.buffer.length then
    some { p with
      buffer := p.buffer.take start ++ s.map some ++ p.buffer.drop (start + s.length) }
  else none

/-- The bytes up to the first NUL, all of them written. -/
def strlen : List (Option UInt8) → Option Nat
  | [] => none
  | none :: _ => none
  | some c :: s => if c = 0 then some 0 else (strlen s).map (· + 1)

/-- `update_offset`. -/
def updateOffset (p : Printbuffer) : Printed :=
  (strlen (p.buffer.drop p.offset)).map fun n => some { p with offset := p.offset + n }

/-- What every print function does with a fixed text: room is made for `needed` bytes, the bytes
are written at the offset, and the offset moves on by `length`. -/
def put (p : Printbuffer) (needed : Nat) (s : Bytes) (length : Nat) : Printed :=
  match p.ensure needed with
  | none => some none
  | some p => (p.write 0 s).map fun p => some { p with offset := p.offset + length }

def deeper (p : Printbuffer) : Printbuffer := { p with depth := p.depth + 1 }
def shallower (p : Printbuffer) : Printbuffer := { p with depth := p.depth - 1 }

end Printbuffer

open Printbuffer

/-- `print_number`. -/
def printNumber (d : Binary64) (p : Printbuffer) : Printed :=
  let text := numberText d
  if 25 < text.length then some none
  else p.put (text.length + 1) (text ++ [0]) text.length

/-- The additional bytes that the first loop of `print_string_ptr` counts. -/
def escapeCharacters : Bytes → Nat
  | [] => 0
  | c :: s =>
    (if (escapeLetter c).isSome then 1 else if c < 32 then 5 else 0) + escapeCharacters s

/-- The second loop of `print_string_ptr`, from the place `i` of the output on. `sprintf` writes a
NUL that the next byte replaces. -/
def escapeLoop : Bytes → Nat → Printbuffer → Option Printbuffer
  | [], _, p => some p
  | c :: s, i, p =>
    if isPlain c then (p.write i [c]).bind (escapeLoop s (i + 1))
    else
      (p.write i [92]).bind fun p =>
        match escapeLetter c with
        | some l => (p.write (i + 1) [l]).bind (escapeLoop s (i + 2))
        | none => (p.write (i + 1) (117 :: hex4 c ++ [0])).bind (escapeLoop s (i + 6))

/-- `print_string_ptr`. -/
def printStringPtr (input : Bytes) (p : Printbuffer) : Printed :=
  let s := cString input
  let outputLength := s.length + escapeCharacters s
  match p.ensure (outputLength + 3) with
  | none => some none
  | some p =>
    if escapeCharacters s = 0 then (p.write 0 (34 :: s ++ [34, 0])).map some
    else
      (((p.write 0 [34]).bind (escapeLoop s 1)).bind fun p =>
        p.write (outputLength + 1) [34, 0]).map some

section

variable (format : Bool)

mutual

/-- `print_value`, with `print_array` and `print_object`. -/
def printValue : Json → Printbuffer → Printed
  | .null, p => p.put 5 (ascii "null" ++ [0]) 0
  | .bool b, p =>
    if b then p.put 5 (ascii "true" ++ [0]) 0 else p.put 6 (ascii "false" ++ [0]) 0
  | .number d, p => printNumber d p
  | .string s, p => printStringPtr s p
  | .array items, p =>
    (p.put 1 [91] 1).bind fun p =>
      (printElements items p.deeper).bind fun p =>
        (p.put 2 [93, 0] 0).bind fun p => some (some p.shallower)
  | .object members, p =>
    let length := if format then 2 else 1
    (p.put (length + 1) (123 :: spaced format [10]) length).bind fun p =>
      (printMembers members p.deeper).bind fun p =>
        (p.put (if format then p.depth + 1 else 2)
          (spaced format (tabs (p.depth - 1)) ++ [125, 0]) 0).bind fun p =>
          some (some p.shallower)

/-- The loop of `print_array`. -/
def printElements : List Json → Printbuffer → Printed
  | [], p => some (some p)
  | v :: vs, p =>
    (printValue v p).bind fun p =>
      p.updateOffset.bind fun p =>
        let length := if format then 2 else 1
        let separated : Printed :=
          if vs.isEmpty then some (some p)
          else p.put (length + 1) (44 :: spaced format [32] ++ [0]) length
        separated.bind fun p => printElements vs p

/-- The loop of `print_object`. -/
def printMembers : List (Bytes × Json) → Printbuffer → Printed
  | [], p => some (some p)
  | (name, v) :: ms, p =>
    let indented : Printed :=
      if format then p.put p.depth (tabs p.depth) p.depth else some (some p)
    indented.bind fun p =>
      (printStringPtr name p).bind fun p =>
        p.updateOffset.bind fun p =>
          let length := if format then 2 else 1
          (p.put length (58 :: spaced format [9]) length).bind fun p =>
            (printValue v p).bind fun p =>
              p.updateOffset.bind fun p =>
                let length := (if format then 1 else 0) + if ms.isEmpty then 0 else 1
                (p.put (length + 1)
                  ((if ms.isEmpty then [] else [44]) ++ spaced format [10] ++ [0]) length).bind
                  fun p => printMembers ms p

end

end

/-- `print`: the text that it returns, up to the terminating NUL, or `some none` for `NULL`. -/
def print (format : Bool) (item : Json) : Option (Option Bytes) :=
  match (printValue format item ⟨List.replicate 256 none, 0, 0⟩).bind updateOffset with
  | none => none
  | some none => some none
  | some (some p) => ((p.buffer.take p.offset).mapM id).map some

/-- `cJSON_Print`. -/
def cJSONPrint (item : Json) : Option (Option Bytes) := print true item

/-- `cJSON_PrintUnformatted`. -/
def cJSONPrintUnformatted (item : Json) : Option (Option Bytes) := print false item

example : cJSONPrintUnformatted (.object [(ascii "a", .array [.null, .bool true])]) =
    some (some (ascii "\x7b\"a\":[null,true]\x7d")) := by decide +kernel

/-! ## The block -/

namespace Printbuffer

variable {p : Printbuffer} {t s : Bytes}

/-- The block begins with these bytes. -/
def Has (p : Printbuffer) (s : Bytes) : Prop := s.map some <+: p.buffer

theorem Has.of_append (h : p.Has (t ++ s)) : p.Has t :=
  (List.map_append ▸ List.prefix_append (t.map some) (s.map some)).trans h

theorem Has.length_le (h : p.Has t) : t.length ≤ p.buffer.length := by
  simpa using List.IsPrefix.length_le h

theorem Has.grow (h : p.Has t) (newsize : Nat) : (p.grow newsize).Has t :=
  List.IsPrefix.trans h (List.prefix_append _ _)

theorem length_grow {newsize : Nat} (h : p.buffer.length ≤ newsize) :
    (p.grow newsize).buffer.length = newsize := by
  rw [Printbuffer.grow, List.length_append, List.length_replicate, Nat.add_sub_cancel' h]

theorem write_spec {i : Nat} (h : p.Has t) (hi : p.offset + i = t.length)
    (hroom : t.length + s.length ≤ p.buffer.length) :
    ∃ q, p.write i s = some q ∧ q.Has (t ++ s) ∧ q.buffer.length = p.buffer.length ∧
      q.offset = p.offset ∧ q.depth = p.depth := by
  obtain ⟨r, hr⟩ := h
  have htake : p.buffer.take (p.offset + i) = t.map some := by
    rw [hi, ← hr, ← List.length_map (f := some), List.take_left]
  refine ⟨_, if_pos (by rwa [hi]), ?_, ?_, rfl, rfl⟩
  · rw [Has, htake, List.map_append]
    exact List.prefix_append _ _
  · rw [htake, ← List.map_append, List.length_append, List.length_map, List.length_append,
      List.length_drop, hi]
    omega

theorem strlen_spec (s : Bytes) (hs : (0 : UInt8) ∉ s) (r : List (Option UInt8)) :
    strlen ((s ++ [0]).map some ++ r) = some s.length := by
  induction s with
  | nil => rfl
  | cons c s ih =>
    rw [List.mem_cons, not_or] at hs
    rw [List.cons_append, List.map_cons, List.cons_append, strlen, if_neg (Ne.symm hs.1), ih hs.2]
    rfl

end Printbuffer

/-! ## What a print function does -/

/-- The block holds a text, and the offset stands behind it. -/
structure Holds (p : Printbuffer) (depth : Nat) (t : Bytes) : Prop where
  has : p.Has t
  offset : p.offset = t.length
  lt : t.length < p.buffer.length
  le : p.buffer.length ≤ INT_MAX.toNat
  depth : p.depth = depth

/-- The block holds a text and its terminator, and the offset has not gone past it. -/
structure Shows (p : Printbuffer) (depth : Nat) (t : Bytes) : Prop where
  has : p.Has (t ++ [0])
  offset : p.offset ≤ t.length
  plain : (0 : UInt8) ∉ t.drop p.offset
  le : p.buffer.length ≤ INT_MAX.toNat
  depth : p.depth = depth

/-- A print function appends a text, if that leaves `slack` bytes up to `INT_MAX`, and answers
`false` otherwise. -/
def Prints (post : Printbuffer → Nat → Bytes → Prop) (slack depth depth' : Nat) (text : Bytes)
    (f : Printbuffer → Printed) : Prop :=
  ∀ p t, Holds p depth t →
    (t.length + text.length + slack ≤ INT_MAX.toNat →
      ∃ q, f p = some (some q) ∧ post q depth' (t ++ text)) ∧
    (INT_MAX.toNat < t.length + text.length + slack → f p = some none)

variable {post : Printbuffer → Nat → Bytes → Prop} {slack slack' depth depth' depth'' : Nat}
  {text text' : Bytes} {f g : Printbuffer → Printed}

theorem Prints.bind (hf : Prints Holds slack depth depth' text f)
    (hg : Prints post slack' depth' depth'' text' g) (hslack : slack ≤ text'.length + slack') :
    Prints post slack' depth depth'' (text ++ text') fun p => (f p).bind g := by
  intro p t hp
  obtain ⟨hfits, hlong⟩ := hf p t hp
  dsimp only
  rw [List.length_append, ← List.append_assoc]
  rcases Nat.lt_or_ge INT_MAX.toNat (t.length + text.length + slack) with hmax | hmax
  · rw [hlong hmax]
    exact ⟨fun _ => by omega, fun _ => rfl⟩
  · obtain ⟨q, hq, hholds⟩ := hfits hmax
    have hsecond := hg q _ hholds
    rw [List.length_append, Nat.add_assoc t.length] at hsecond
    rw [hq]
    exact hsecond

theorem updateOffset_spec {p : Printbuffer} {t : Bytes} (h : Shows p depth t) :
    ∃ q, p.updateOffset = some (some q) ∧ Holds q depth t := by
  obtain ⟨r, hr⟩ := h.has
  have hle : p.offset ≤ ((t ++ [0]).map some).length := by
    rw [List.length_map, List.length_append]
    exact h.offset.trans (Nat.le_add_right _ _)
  have hsplit : p.buffer.drop p.offset = (t.drop p.offset ++ [0]).map some ++ r := by
    rw [← hr, List.drop_append_of_le_length hle, ← List.map_drop,
      List.drop_append_of_le_length h.offset]
  have hlen := h.has.length_le
  rw [List.length_append, List.length_singleton] at hlen
  refine ⟨{ p with offset := p.offset + (t.length - p.offset) }, ?_, ?_⟩
  · rw [updateOffset, hsplit, strlen_spec _ h.plain, List.length_drop]
    rfl
  · exact ⟨h.has.of_append, Nat.add_sub_cancel' h.offset, hlen, h.le, h.depth⟩

theorem Prints.update (hf : Prints Shows slack depth depth' text f) :
    Prints Holds slack depth depth' text fun p => (f p).bind updateOffset := by
  intro p t hp
  obtain ⟨hfits, hlong⟩ := hf p t hp
  dsimp only
  refine ⟨fun hmax => ?_, fun hmax => ?_⟩
  · obtain ⟨q, hq, hshows⟩ := hfits hmax
    rw [hq]
    exact updateOffset_spec hshows
  · rw [hlong hmax]
    rfl

theorem ensure_fits {p : Printbuffer} {t : Bytes} {needed : Nat} (h : Holds p depth t)
    (hmax : t.length + needed + 1 ≤ INT_MAX.toNat) :
    ∃ q, p.ensure needed = some q ∧ Holds q depth t ∧
      t.length + needed + 1 ≤ q.buffer.length := by
  have hgrow : ∀ newsize, p.buffer.length ≤ newsize → newsize ≤ INT_MAX.toNat →
      t.length + needed + 1 ≤ newsize →
      Holds (p.grow newsize) depth t ∧ t.length + needed + 1 ≤ (p.grow newsize).buffer.length := by
    intro newsize hle hmax hneeded
    have hlen := length_grow hle
    exact ⟨⟨h.has.grow newsize, h.offset, by omega, by omega, h.depth⟩, by omega⟩
  have hlt := h.lt
  have hle := h.le
  unfold ensure
  dsimp only
  rw [h.offset, if_neg (by omega), if_neg (by omega)]
  split
  · exact ⟨p, rfl, h, by omega⟩
  split
  · rw [if_pos (by omega)]
    exact ⟨_, rfl, hgrow _ (by omega) le_rfl (by omega)⟩
  · exact ⟨_, rfl, hgrow _ (by omega) (by omega) (by omega)⟩

theorem ensure_long {p : Printbuffer} {t : Bytes} {needed : Nat} (h : Holds p depth t)
    (hmax : INT_MAX.toNat < t.length + needed + 1) : p.ensure needed = none := by
  have hlt := h.lt
  have hle := h.le
  unfold ensure
  dsimp only
  rw [h.offset, if_neg (by omega)]
  split
  · rfl
  · rw [if_neg (by omega), if_pos (by omega), if_neg (by omega)]

/-- A fixed text is written whole or not at all. -/
theorem put_spec (length : Nat) {p : Printbuffer} {t s : Bytes} {needed : Nat} (h : Holds p depth t)
    (hfits : s.length ≤ needed + 1) :
    (t.length + needed + 1 ≤ INT_MAX.toNat → ∃ q, p.put needed s length = some (some q) ∧
      q.Has (t ++ s) ∧ q.offset = t.length + length ∧ t.length + needed < q.buffer.length ∧
      q.buffer.length ≤ INT_MAX.toNat ∧ q.depth = depth) ∧
    (INT_MAX.toNat < t.length + needed + 1 → p.put needed s length = some none) := by
  unfold put
  refine ⟨fun hmax => ?_, fun hmax => ?_⟩
  · obtain ⟨q, hq, hholds, hroom⟩ := ensure_fits h hmax
    obtain ⟨r, hr, hhas, hrlen, hroffset, hrdepth⟩ :=
      write_spec (s := s) (i := 0) hholds.has hholds.offset (by omega)
    rw [hq]
    dsimp only
    rw [hr]
    exact ⟨_, rfl, hhas, congrArg (· + length) (hroffset.trans hholds.offset),
      by rw [hrlen]; exact hroom, hrlen.trans_le hholds.le, hrdepth.trans hholds.depth⟩
  · rw [ensure_long h hmax]

theorem prints_put (depth needed : Nat) (text extra : Bytes) (hlen : text.length ≤ needed)
    (hfits : (text ++ extra).length ≤ needed + 1) :
    Prints Holds (needed + 1 - text.length) depth depth text
      fun p => p.put needed (text ++ extra) text.length := by
  intro p t hp
  obtain ⟨hput, hlong⟩ := put_spec text.length hp hfits
  refine ⟨fun hmax => ?_, fun hmax => hlong (by omega)⟩
  obtain ⟨q, hq, hhas, hoffset, hroom, hle, hdepth⟩ := hput (by omega)
  rw [← List.append_assoc] at hhas
  rw [← List.length_append] at hoffset
  refine ⟨q, hq, hhas.of_append, hoffset, ?_, hle, hdepth⟩
  rw [List.length_append]
  omega

theorem prints_put_shown (depth needed : Nat) (text : Bytes) (hlen : text.length ≤ needed)
    (hplain : (0 : UInt8) ∉ text) :
    Prints Shows (needed + 1 - text.length) depth depth text
      fun p => p.put needed (text ++ [0]) 0 := by
  intro p t hp
  have hfits : (text ++ [0]).length ≤ needed + 1 := by
    rw [List.length_append]
    exact Nat.succ_le_succ hlen
  obtain ⟨hput, hlong⟩ := put_spec 0 hp hfits
  refine ⟨fun hmax => ?_, fun hmax => hlong (by omega)⟩
  obtain ⟨q, hq, hhas, hoffset, hroom, hle, hdepth⟩ := hput (by omega)
  rw [Nat.add_zero] at hoffset
  refine ⟨q, hq, ?_, ?_, ?_, hle, hdepth⟩
  · rwa [List.append_assoc]
  · rw [hoffset, List.length_append]
    exact Nat.le_add_right _ _
  · rwa [hoffset, List.drop_left]

/-! ## Strings -/

theorem length_escapeByte (c : UInt8) :
    (escapeByte c).length =
      (if (escapeLetter c).isSome then 1 else if c < 32 then 5 else 0) + 1 := by
  unfold escapeByte
  cases hl : escapeLetter c with
  | some l => simp [(escapeLetter_ne hl).2]
  | none =>
    by_cases hc : c < 32
    · simp [(escapeLetter_none hl).mpr hc, hc, hex4]
    · have hplain : isPlain c = true := by
        rw [← Bool.not_eq_false, escapeLetter_none hl]
        exact hc
      simp [hplain, hc]

theorem length_flatMap_escapeByte (s : Bytes) :
    (s.flatMap escapeByte).length = s.length + escapeCharacters s := by
  induction s with
  | nil => rfl
  | cons c s ih =>
    rw [List.flatMap_cons, List.length_append, length_escapeByte, ih, escapeCharacters,
      List.length_cons]
    omega

theorem flatMap_escapeByte_of_zero {s : Bytes} (h : escapeCharacters s = 0) :
    s.flatMap escapeByte = s := by
  induction s with
  | nil => rfl
  | cons c s ih =>
    rw [escapeCharacters, Nat.add_eq_zero_iff] at h
    have hlen := length_escapeByte c
    rw [h.1] at hlen
    have hplain : escapeByte c = [c] := by
      unfold escapeByte at hlen ⊢
      split
      · rfl
      · next hplain => cases hl : escapeLetter c <;> simp [hplain, hl] at hlen
    rw [List.flatMap_cons, hplain, ih h.2]
    rfl

/-- The loop writes the escaped bytes behind what is there, with one place more for the NUL of
`sprintf`. -/
theorem escapeLoop_spec {s t : Bytes} {i : Nat} {p : Printbuffer} (h : p.Has t)
    (hi : p.offset + i = t.length)
    (hroom : t.length + (s.flatMap escapeByte).length < p.buffer.length) :
    ∃ q, escapeLoop s i p = some q ∧ q.Has (t ++ s.flatMap escapeByte) ∧
      q.buffer.length = p.buffer.length ∧ q.offset = p.offset ∧ q.depth = p.depth := by
  induction s generalizing t i p with
  | nil => exact ⟨p, rfl, by simpa using h, rfl, rfl, rfl⟩
  | cons c s ih =>
    rw [List.flatMap_cons, List.length_append] at hroom
    -- one step appends `escapeByte c`, whatever lies behind it
    have hnext : ∀ {q : Printbuffer} {j : Nat}, q.Has (t ++ escapeByte c) →
        j = i + (escapeByte c).length → q.buffer.length = p.buffer.length →
        q.offset = p.offset → q.depth = p.depth →
        ∃ r, escapeLoop s j q = some r ∧ r.Has (t ++ (c :: s).flatMap escapeByte) ∧
          r.buffer.length = p.buffer.length ∧ r.offset = p.offset ∧ r.depth = p.depth := by
      intro q j hhas hj hlen hoffset hdepth
      obtain ⟨r, hr, hhas', hlen', hoffset', hdepth'⟩ := ih (i := j) hhas
        (by rw [List.length_append]; omega) (by rw [List.length_append]; omega)
      refine ⟨r, hr, ?_, hlen'.trans hlen, hoffset'.trans hoffset, hdepth'.trans hdepth⟩
      rwa [List.flatMap_cons, ← List.append_assoc]
    unfold escapeLoop
    unfold escapeByte at hroom hnext
    split
    · next hplain =>
      rw [if_pos hplain] at hroom hnext
      obtain ⟨q, hq, hhas, hlen, hoffset, hdepth⟩ := write_spec (s := [c]) h hi (by
        rw [List.length_singleton] at hroom ⊢
        omega)
      rw [hq]
      exact hnext hhas rfl hlen hoffset hdepth
    · next hplain =>
      rw [if_neg hplain] at hroom hnext
      rw [List.length_cons] at hroom
      obtain ⟨q, hq, hhas, hlen, hoffset, hdepth⟩ := write_spec (s := [92]) h hi (by
        rw [List.length_singleton]
        omega)
      rw [hq, Option.bind_some]
      cases hl : escapeLetter c with
      | some l =>
        simp only [hl, List.length_cons, List.length_nil] at hroom hnext
        obtain ⟨r, hr, hhas', hlen', hoffset', hdepth'⟩ := write_spec (s := [l]) (i := i + 1) hhas
          (by rw [List.length_append, List.length_singleton]; omega)
          (by rw [List.length_append, List.length_singleton, List.length_singleton]; omega)
        rw [List.append_assoc] at hhas'
        dsimp only
        rw [hr]
        exact hnext hhas' rfl (hlen'.trans hlen) (hoffset'.trans hoffset) (hdepth'.trans hdepth)
      | none =>
        simp only [hl, hex4, List.length_cons, List.length_nil] at hroom hnext
        obtain ⟨r, hr, hhas', hlen', hoffset', hdepth'⟩ :=
          write_spec (s := 117 :: hex4 c ++ [0]) (i := i + 1) hhas
            (by rw [List.length_append, List.length_singleton]; omega)
            (by simp only [hex4, List.length_append, List.length_cons, List.length_nil]; omega)
        dsimp only
        rw [hr]
        rw [← List.append_assoc, List.append_assoc t] at hhas'
        exact hnext hhas'.of_append rfl (hlen'.trans hlen) (hoffset'.trans hoffset)
          (hdepth'.trans hdepth)

/-- `print_string_ptr` appends the quoted string. -/
theorem printStringPtr_spec (s : Bytes) :
    Prints Shows 2 depth depth (quote s) (printStringPtr s) := by
  intro p t hp
  have hlength := length_flatMap_escapeByte (cString s)
  have hquote : (quote s).length = ((cString s).flatMap escapeByte).length + 2 := by
    rw [quote, List.length_append, List.length_cons, List.length_singleton]
  have hends : ∀ {q : Printbuffer}, q.Has (t ++ (quote s ++ [0])) → q.offset = t.length →
      q.buffer.length ≤ INT_MAX.toNat → q.depth = depth → Shows q depth (t ++ quote s) := by
    intro q hhas hoffset hle hdepth
    refine ⟨by rwa [List.append_assoc], ?_, ?_, hle, hdepth⟩
    · rw [hoffset, List.length_append]
      exact Nat.le_add_right _ _
    · rw [hoffset, List.drop_left]
      exact quote_ne s
  unfold printStringPtr
  dsimp only
  refine ⟨fun hmax => ?_, fun hmax => ?_⟩
  · have hneeded : t.length + ((cString s).length + escapeCharacters (cString s) + 3) + 1
        ≤ INT_MAX.toNat := by omega
    obtain ⟨q, hq, hholds, hroom⟩ := ensure_fits hp hneeded
    rw [hq]
    dsimp only
    split
    · next hzero =>
      have hplain := flatMap_escapeByte_of_zero hzero
      obtain ⟨r, hr, hhas, hlen, hoffset, hdepth⟩ :=
        write_spec (s := 34 :: cString s ++ [34, 0]) (i := 0) hholds.has hholds.offset (by
          simp only [List.length_append, List.length_cons, List.length_nil]
          omega)
      refine ⟨r, by rw [hr]; rfl, hends ?_ (hoffset.trans hholds.offset) (hlen.trans_le hholds.le)
        (hdepth.trans hholds.depth)⟩
      rw [quote, hplain]
      simpa using hhas
    · obtain ⟨q1, hq1, hhas1, hlen1, hoffset1, hdepth1⟩ :=
        write_spec (s := [34]) (i := 0) hholds.has hholds.offset (by
          rw [List.length_singleton]
          omega)
      obtain ⟨q2, hq2, hhas2, hlen2, hoffset2, hdepth2⟩ :=
        escapeLoop_spec (s := cString s) (i := 1) hhas1
          (by rw [List.length_append, List.length_singleton, hoffset1, hholds.offset])
          (by rw [List.length_append, List.length_singleton]; omega)
      obtain ⟨q3, hq3, hhas3, hlen3, hoffset3, hdepth3⟩ :=
        write_spec (s := [34, 0]) (i := (cString s).length + escapeCharacters (cString s) + 1) hhas2
          (by
            simp only [List.length_append, List.length_singleton, hoffset2, hoffset1,
              hholds.offset]
            omega)
          (by simp only [List.length_append, List.length_cons, List.length_nil]; omega)
      have hoffset : q3.offset = t.length := by rw [hoffset3, hoffset2, hoffset1, hholds.offset]
      have hlen : q3.buffer.length = q.buffer.length := by rw [hlen3, hlen2, hlen1]
      have hdepth : q3.depth = depth := by rw [hdepth3, hdepth2, hdepth1, hholds.depth]
      refine ⟨q3, ?_, hends ?_ hoffset (hlen.trans_le hholds.le) hdepth⟩
      · rw [hq1, Option.bind_some, hq2, Option.bind_some, hq3]
        rfl
      · simpa [quote] using hhas3
  · rw [ensure_long hp (by omega)]

/-! ## Values -/

theorem printNumber_spec (d : Binary64) :
    Prints Shows 2 depth depth (numberText d) (printNumber d) := by
  intro p t hp
  have hfits : (numberText d ++ [0]).length ≤ (numberText d).length + 1 + 1 := by
    rw [List.length_append]
    exact Nat.le_succ _
  obtain ⟨hput, hlong⟩ := put_spec (numberText d).length hp hfits
  unfold printNumber
  dsimp only
  rw [if_neg (Nat.not_lt.mpr (length_numberText_le d))]
  refine ⟨fun hmax => ?_, fun hmax => hlong hmax⟩
  obtain ⟨q, hq, hhas, hoffset, -, hle, hdepth⟩ := hput hmax
  rw [← List.length_append] at hoffset
  refine ⟨q, hq, by rwa [List.append_assoc], hoffset.le, ?_, hle, hdepth⟩
  rw [hoffset, List.drop_length]
  exact List.not_mem_nil

theorem Holds.deeper {p : Printbuffer} {t : Bytes} (h : Holds p depth t) :
    Holds p.deeper (depth + 1) t :=
  ⟨h.has, h.offset, h.lt, h.le, congrArg (· + 1) h.depth⟩

theorem Shows.shallower {p : Printbuffer} {t : Bytes} (h : Shows p (depth + 1) t) :
    Shows p.shallower depth t :=
  ⟨h.has, h.offset, h.plain, h.le, congrArg (· - 1) h.depth⟩

theorem Prints.deeper (hf : Prints post slack (depth + 1) depth' text f) :
    Prints post slack depth depth' text fun p => f p.deeper :=
  fun p t hp => hf p.deeper t hp.deeper

theorem Prints.shallower (hf : Prints Shows slack depth (depth' + 1) text f) :
    Prints Shows slack depth depth' text fun p => (f p).bind fun p => some (some p.shallower) := by
  intro p t hp
  obtain ⟨hfits, hlong⟩ := hf p t hp
  dsimp only
  refine ⟨fun hmax => ?_, fun hmax => ?_⟩
  · obtain ⟨q, hq, hshows⟩ := hfits hmax
    rw [hq]
    exact ⟨_, rfl, hshows.shallower⟩
  · rw [hlong hmax]
    rfl

theorem Printed.bind_assoc (r : Printed) (f g : Printbuffer → Printed) :
    (r.bind f).bind g = r.bind fun p => (f p).bind g := by
  rcases r with _ | _ | _ <;> rfl

theorem Printed.bind_self (r : Printed) : (r.bind fun p => some (some p)) = r := by
  rcases r with _ | _ | _ <;> rfl

/-- A value and `update_offset`, before what follows. -/
theorem Prints.then (hf : Prints Shows slack depth depth' text f)
    (hg : Prints post slack' depth' depth'' text' g) (hslack : slack ≤ text'.length + slack') :
    Prints post slack' depth depth'' (text ++ text')
      fun p => (f p).bind fun p => p.updateOffset.bind g := by
  simpa only [Printed.bind_assoc] using hf.update.bind hg hslack

variable {format : Bool}

/-- `print_value` appends the text of the value. -/
def PrintsValue (format : Bool) (v : Json) : Prop :=
  ∀ depth, Prints Shows 2 depth depth (render format depth v) (printValue format v)

theorem printElements_spec {items : List Json} (h : ∀ v ∈ items, PrintsValue format v)
    (hne : items ≠ []) :
    Prints Holds 2 depth depth (renderItems format depth items) (printElements format items) := by
  induction items with
  | nil => exact absurd rfl hne
  | cons v vs ih =>
    obtain ⟨hv, hvs⟩ := List.forall_mem_cons.mp h
    cases vs with
    | nil =>
      have hlast := (hv depth).update
      have hprint : printElements format [v] =
          fun p => (printValue format v p).bind updateOffset := by
        funext p
        exact congrArg _ (funext fun q => Printed.bind_self _)
      rw [hprint, renderItems, renderItems, List.append_nil]
      exact (List.append_nil (render format depth v)).symm ▸ hlast
    | cons w ws =>
      have hcomma := prints_put depth ((if format then 2 else 1) + 1)
        (44 :: spaced format [32]) [0] (by cases format <;> decide) (by cases format <;> decide)
      have hslack : (if format then 2 else 1) + 1 + 1 - (44 :: spaced format [32]).length = 2 := by
        cases format <;> rfl
      have hlen : (44 :: spaced format [32]).length = if format then 2 else 1 := by
        cases format <;> rfl
      rw [hslack] at hcomma
      have hrest := hcomma.bind (ih hvs (List.cons_ne_nil _ _)) (Nat.le_add_left _ _)
      have hall := (hv depth).then hrest (Nat.le_add_left _ _)
      rw [renderItems, List.append_assoc]
      rw [hlen] at hall
      exact hall

theorem prints_array {items : List Json} (h : ∀ v ∈ items, PrintsValue format v) :
    PrintsValue format (.array items) := by
  intro depth
  have hopen := prints_put depth 1 [91] [] le_rfl (by decide)
  have hclose := (prints_put_shown (depth + 1) 2 [93] (by decide) (by decide)).shallower
  rw [render, List.cons_append]
  cases items with
  | nil => exact hopen.bind hclose.deeper (by decide)
  | cons v vs =>
    have hitems := @printElements_spec (depth + 1) format _ h (List.cons_ne_nil _ _)
    have hslack : 1 ≤ (renderItems format (depth + 1) (v :: vs) ++ [93]).length + 2 :=
      (Nat.le_add_left 1 _).trans (Nat.le_succ _)
    exact hopen.bind (hitems.bind hclose (by decide)).deeper hslack

/-- The tabs in front of a name. -/
theorem prints_indent : Prints Holds 1 depth depth (spaced format (tabs depth))
    fun p => if format then p.put p.depth (tabs p.depth) p.depth else some (some p) := by
  intro p t hp
  cases format with
  | false =>
    have hlt := hp.lt
    have hle := hp.le
    refine ⟨fun _ => ⟨p, rfl, ?_⟩, fun hmax => ?_⟩
    · rwa [spaced, if_neg Bool.false_ne_true, List.append_nil]
    · rw [spaced, if_neg Bool.false_ne_true, List.length_nil] at hmax
      omega
  | true =>
    have hlen : (tabs depth).length = depth := List.length_replicate
    have hput := prints_put depth depth (tabs depth) [] hlen.le
      (by rw [List.append_nil, hlen]; exact Nat.le_succ _) p t hp
    rw [List.append_nil, hlen, Nat.add_sub_cancel_left] at hput
    rw [spaced, if_pos rfl, hlen]
    dsimp only
    rw [if_pos rfl, hp.depth]
    exact hput

/-- One member of an object, with what comes behind it. -/
theorem prints_member (name : Bytes) {v : Json} {separator : Bytes} {needed : Nat}
    (hv : PrintsValue format v) {rest : Printbuffer → Printed}
    (hrest : Prints Holds 2 depth depth (separator ++ text)
      fun p => (p.put needed (separator ++ [0]) separator.length).bind rest) :
    Prints Holds 2 depth depth
      (spaced format (tabs depth) ++ (quote name ++ (58 :: spaced format [9] ++
        (render format depth v ++ (separator ++ text)))))
      fun p => (if format then p.put p.depth (tabs p.depth) p.depth else some (some p)).bind
        fun p => (printStringPtr name p).bind fun p => p.updateOffset.bind fun p =>
          (p.put (if format then 2 else 1) (58 :: spaced format [9]) (if format then 2 else 1)).bind
            fun p => (printValue format v p).bind fun p => p.updateOffset.bind fun p =>
              (p.put needed (separator ++ [0]) separator.length).bind rest := by
  have hcolon := prints_put depth (if format then 2 else 1)
    (58 :: spaced format [9]) [] (by cases format <;> decide) (by cases format <;> decide)
  have hlen : (58 :: spaced format [9]).length = if format then 2 else 1 := by
    cases format <;> rfl
  rw [List.append_nil, hlen, Nat.add_sub_cancel_left] at hcolon
  have hvalue := (hv depth).then hrest (Nat.le_add_left _ _)
  have hpair := hcolon.bind hvalue (Nat.le_trans (Nat.le_succ 1) (Nat.le_add_left _ _))
  have hname := (printStringPtr_spec name).then hpair (Nat.le_add_left _ _)
  exact prints_indent.bind hname (Nat.le_trans (Nat.le_succ 1) (Nat.le_add_left _ _))

theorem printMembers_spec {members : List (Bytes × Json)}
    (h : ∀ m ∈ members, PrintsValue format m.2) (hne : members ≠ []) :
    Prints Holds 2 depth depth (renderMembers format depth members)
      (printMembers format members) := by
  induction members with
  | nil => exact absurd rfl hne
  | cons m ms ih =>
    obtain ⟨name, v⟩ := m
    obtain ⟨hv, hms⟩ := List.forall_mem_cons.mp h
    -- the comma, if another member follows, and the end of the line
    generalize hsep : (if ms.isEmpty then [] else [44]) ++ spaced format [10] = separator
    have hlen : separator.length = (if format then 1 else 0) + if ms.isEmpty then 0 else 1 := by
      rw [← hsep]
      cases format <;> cases ms.isEmpty <;> rfl
    have hput := prints_put depth (separator.length + 1) separator [0]
      (Nat.le_succ _) (by rw [List.length_append]; exact Nat.le_succ _)
    rw [show separator.length + 1 + 1 - separator.length = 2 by omega] at hput
    have hrest : Prints Holds 2 depth depth (separator ++ renderMembers format depth ms)
        fun p => (p.put (separator.length + 1) (separator ++ [0]) separator.length).bind
          fun p => printMembers format ms p := by
      cases ms with
      | nil =>
        rw [renderMembers, List.append_nil]
        simpa only [printMembers, Printed.bind_self] using hput
      | cons m' ms' => exact hput.bind (ih hms (List.cons_ne_nil _ _)) (Nat.le_add_left _ _)
    have hmember := prints_member name hv hrest
    subst hsep
    rw [hlen, List.append_assoc _ (spaced format [10])] at hmember
    simp only [renderMembers, List.append_assoc]
    exact hmember

theorem prints_object {members : List (Bytes × Json)}
    (h : ∀ m ∈ members, PrintsValue format m.2) : PrintsValue format (.object members) := by
  intro depth
  have hopen := prints_put depth ((if format then 2 else 1) + 1)
    (123 :: spaced format [10]) [] (by cases format <;> decide) (by cases format <;> decide)
  have hslack : (if format then 2 else 1) + 1 + 1 - (123 :: spaced format [10]).length = 2 := by
    cases format <;> rfl
  have hlen : (123 :: spaced format [10]).length = if format then 2 else 1 := by
    cases format <;> rfl
  rw [List.append_nil, hslack, hlen] at hopen
  have hclose : Prints Shows 2 (depth + 1) depth (spaced format (tabs depth) ++ [125])
      fun p => (p.put (if format then p.depth + 1 else 2)
        (spaced format (tabs (p.depth - 1)) ++ [125, 0]) 0).bind
          fun p => some (some p.shallower) := by
    refine Prints.shallower fun p t hp => ?_
    have htabs : (tabs depth).length = depth := List.length_replicate
    have hplain : (0 : UInt8) ∉ spaced format (tabs depth) ++ [125] := by
      cases format <;> simp [spaced, tabs]
    have hneeded : (if format then depth + 1 + 1 else 2) =
        (spaced format (tabs depth) ++ [125]).length + 1 := by
      cases format
      · rfl
      · simp [spaced, htabs]
    have hput := prints_put_shown (depth + 1) _ _ (Nat.le_succ _) hplain p t hp
    rw [show ∀ n, n + 1 + 1 - n = 2 from fun n => by omega, List.append_assoc] at hput
    rw [hp.depth, Nat.add_sub_cancel, hneeded]
    exact hput
  rw [render, List.append_assoc]
  cases members with
  | nil =>
    rw [renderMembers, List.append_nil]
    exact hopen.bind hclose.deeper (Nat.le_add_left _ _)
  | cons m ms =>
    have hmembers := @printMembers_spec (depth + 1) format _ h (List.cons_ne_nil _ _)
    rw [List.append_assoc]
    exact hopen.bind (hmembers.bind hclose (Nat.le_add_left _ _)).deeper (Nat.le_add_left _ _)

theorem printValue_spec (format : Bool) (v : Json) : PrintsValue format v := by
  induction v using json_induct with
  | null => exact fun _ => prints_put_shown _ 5 (ascii "null") (by decide) (by decide)
  | bool b =>
    intro depth
    cases b with
    | true => exact prints_put_shown _ 5 (ascii "true") (by decide) (by decide)
    | false => exact prints_put_shown _ 6 (ascii "false") (by decide) (by decide)
  | number x => exact fun _ => printNumber_spec x
  | string s => exact fun _ => printStringPtr_spec s
  | array items ih => exact prints_array ih
  | object members ih => exact prints_object ih

theorem mapM_id_map_some (s : Bytes) : (s.map some).mapM id = some s := by
  induction s with
  | nil => rfl
  | cons c s ih => simp [List.mapM_cons, ih]

/-- The printer stays inside its block. Its result is the text of the value, or `NULL` where
that text is longer than `INT_MAX - 2` bytes. -/
theorem print_eq (format : Bool) (v : Json) :
    print format v = some (if (render format 0 v).length + 2 ≤ INT_MAX.toNat then
      some (render format 0 v) else none) := by
  have hstart : Holds ⟨List.replicate 256 none, 0, 0⟩ 0 [] :=
    ⟨List.nil_prefix, rfl, by rw [List.length_replicate]; exact Nat.succ_pos _,
      by rw [List.length_replicate]; decide, rfl⟩
  obtain ⟨hfits, hlong⟩ := (printValue_spec format v 0).update _ _ hstart
  rw [List.length_nil, Nat.zero_add] at hfits hlong
  rw [List.nil_append] at hfits
  dsimp only at hfits hlong
  unfold print
  rcases Nat.lt_or_ge INT_MAX.toNat ((render format 0 v).length + 2) with hmax | hmax
  · rw [if_neg (Nat.not_le.mpr hmax), hlong hmax]
  · obtain ⟨q, hq, hholds⟩ := hfits hmax
    obtain ⟨r, hr⟩ := hholds.has
    have htake : q.buffer.take q.offset = (render format 0 v).map some := by
      rw [hholds.offset, ← hr, ← List.length_map (f := some), List.take_left]
    rw [if_pos hmax, hq]
    dsimp only
    rw [htake, mapM_id_map_some]
    rfl

end TrafficAnalyzer.Cjson
