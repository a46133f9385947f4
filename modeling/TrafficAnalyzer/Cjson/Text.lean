import TrafficAnalyzer.Cjson.Numbers

/-!
# JSON texts

The text of a JSON value, plain or with the white space of `cJSON_Print`, as a function of the
value. The names and strings of a value are C strings for the printer, which end at the first
NUL.
-/

namespace TrafficAnalyzer.Cjson

/-- The bytes with a short escape, and the letter behind the backslash. -/
def shortEscapes : List (UInt8 × UInt8) :=
  [(92, 92), (34, 34), (8, 98), (12, 102), (10, 110), (13, 114), (9, 116)]

def escapeLetter (c : UInt8) : Option UInt8 := (shortEscapes.find? (·.1 = c)).map (·.2)

def hexDigitLower (n : Nat) : UInt8 := UInt8.ofNat (if n < 10 then 48 + n else 87 + n)

/-- `"%04x"` of a byte. -/
def hex4 (c : UInt8) : Bytes := [48, 48, hexDigitLower (c.toNat / 16), hexDigitLower (c.toNat % 16)]

/-- A byte that is printed as it is. -/
def isPlain (c : UInt8) : Bool := 31 < c ∧ c ≠ 34 ∧ c ≠ 92

def escapeByte (c : UInt8) : Bytes :=
  if isPlain c then [c]
  else
    92 :: match escapeLetter c with
      | some l => [l]
      | none => 117 :: hex4 c

def quote (s : Bytes) : Bytes := 34 :: (cString s).flatMap escapeByte ++ [34]

/-- White space that only a formatted text has. -/
def spaced (format : Bool) (s : Bytes) : Bytes := if format then s else []

def tabs (n : Nat) : Bytes := List.replicate n 9

section

variable (format : Bool)

mutual

/-- The text of a value inside so many arrays and objects. -/
def render (depth : Nat) : Json → Bytes
  | .null => ascii "null"
  | .bool b => if b then ascii "true" else ascii "false"
  | .number x => numberText x
  | .string s => quote s
  | .array items => 91 :: renderItems (depth + 1) items ++ [93]
  | .object members =>
    123 :: spaced format [10] ++ renderMembers (depth + 1) members ++ spaced format (tabs depth) ++
      [125]

def renderItems (depth : Nat) : List Json → Bytes
  | [] => []
  | v :: vs =>
    render depth v ++
      (if vs.isEmpty then [] else 44 :: spaced format [32]) ++ renderItems depth vs

def renderMembers (depth : Nat) : List (Bytes × Json) → Bytes
  | [] => []
  | (name, v) :: ms =>
    spaced format (tabs depth) ++ quote name ++ 58 :: spaced format [9] ++ render depth v ++
      (if ms.isEmpty then [] else [44]) ++ spaced format [10] ++ renderMembers depth ms

end

end

mutual

/-- How many arrays and objects lie inside one another. -/
def nesting : Json → Nat
  | .array items => nestingItems items + 1
  | .object members => nestingMembers members + 1
  | _ => 0

def nestingItems : List Json → Nat
  | [] => 0
  | v :: vs => max (nesting v) (nestingItems vs)

def nestingMembers : List (Bytes × Json) → Nat
  | [] => 0
  | (_, v) :: ms => max (nesting v) (nestingMembers ms)

end

example : render false 0 (.array [.null, .object [(ascii "k\n", .number (.ofInt 5))]]) =
    ascii "[null,\x7b\"k\\n\":5\x7d]" := by decide +kernel

/-- Induction over values. -/
@[elab_as_elim]
theorem json_induct {motive : Json → Prop} (null : motive .null) (bool : ∀ b, motive (.bool b))
    (number : ∀ x, motive (.number x)) (string : ∀ s, motive (.string s))
    (array : ∀ items, (∀ v ∈ items, motive v) → motive (.array items))
    (object : ∀ members, (∀ m ∈ members, motive m.2) → motive (.object members)) (v : Json) :
    motive v := by
  refine Json.rec (motive_1 := motive) (motive_2 := fun items => ∀ v ∈ items, motive v)
    (motive_3 := fun members => ∀ m ∈ members, motive m.2) (motive_4 := fun m => motive m.2)
    null bool number string array object ?_ ?_ ?_ ?_ ?_ v
  · exact fun v hv => absurd hv List.not_mem_nil
  · exact fun v vs hv hvs => List.forall_mem_cons.mpr ⟨hv, hvs⟩
  · exact fun m hm => absurd hm List.not_mem_nil
  · exact fun m ms hm hms => List.forall_mem_cons.mpr ⟨hm, hms⟩
  · exact fun _ _ hv => hv

/-! ## Escaped bytes -/

theorem hexDigitLower_ne : ∀ n < 16, hexDigitLower n ≠ 0 := by decide

theorem hex4_ne (c : UInt8) : (0 : UInt8) ∉ hex4 c := by
  have hhigh := hexDigitLower_ne (c.toNat / 16) (Nat.div_lt_of_lt_mul c.toNat_lt)
  have hlow := hexDigitLower_ne (c.toNat % 16) (Nat.mod_lt _ (by decide))
  simp [hex4, hhigh.symm, hlow.symm]

/-- A property of the short escapes. -/
theorem escapeLetter_cases {P : UInt8 → UInt8 → Prop} [∀ c l, Decidable (P c l)]
    (hP : (shortEscapes.all fun e => decide (P e.1 e.2)) = true)
    {c l : UInt8} (h : escapeLetter c = some l) : P c l := by
  obtain ⟨e, he, rfl⟩ := Option.map_eq_some_iff.mp h
  have hc : decide (e.1 = c) = true := List.find?_some (p := fun e : UInt8 × UInt8 => decide (e.1 = c)) he
  obtain rfl := of_decide_eq_true hc
  exact of_decide_eq_true (List.all_eq_true.mp hP e (List.mem_of_find?_eq_some he))

theorem escapeLetter_ne {c l : UInt8} (h : escapeLetter c = some l) : l ≠ 0 ∧ isPlain c = false :=
  escapeLetter_cases (P := fun c l => l ≠ 0 ∧ isPlain c = false) (by decide) h

/-- A byte without a short escape is printed as it is, or is a control character. -/
theorem escapeLetter_none {c : UInt8} (h : escapeLetter c = none) : isPlain c = false ↔ c < 32 := by
  have habsent := List.find?_eq_none.mp (Option.map_eq_none_iff.mp h)
  have hslash : c ≠ 92 := fun hc => habsent (92, 92) (by decide) (decide_eq_true hc.symm)
  have hquote : c ≠ 34 := fun hc => habsent (34, 34) (by decide) (decide_eq_true hc.symm)
  rw [isPlain, decide_eq_false_iff_not, UInt8.lt_iff_toNat_lt, UInt8.lt_iff_toNat_lt]
  rw [show UInt8.toNat 31 = 31 from rfl, show UInt8.toNat 32 = 32 from rfl]
  simp [hslash, hquote]
  omega

theorem escapeByte_ne {c : UInt8} (hc : c ≠ 0) : (0 : UInt8) ∉ escapeByte c := by
  unfold escapeByte
  split
  · simpa using hc.symm
  · cases hl : escapeLetter c with
    | some l => simpa using (escapeLetter_ne hl).1.symm
    | none => simpa using hex4_ne c

theorem quote_ne (s : Bytes) : (0 : UInt8) ∉ quote s := by
  have hbody : (0 : UInt8) ∉ (cString s).flatMap escapeByte := by
    rw [List.mem_flatMap]
    rintro ⟨c, hc, h0⟩
    refine escapeByte_ne ?_ h0
    rintro rfl
    exact cString_nul s hc
  simpa [quote] using hbody

end TrafficAnalyzer.Cjson
