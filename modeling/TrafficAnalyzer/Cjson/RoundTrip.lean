import TrafficAnalyzer.Cjson.ParseSafety
import TrafficAnalyzer.Cjson.Print

/-!
# JSON texts read back

What `cJSON_Print` or `cJSON_PrintUnformatted` writes and `cJSON_ParseWithLength` reads.

* `parseValue_render`: the text of a value is read to its end as `reread` of the value, unless
  the value is nested deeper than the limit; then it is refused.
* `parse_print`: the same for the two entry points, also with other bytes behind the text. Only
  behind a number the first of them matters: it must not be a byte that numbers are made of.
-/

namespace TrafficAnalyzer.Cjson

open LineProtocol Printf

variable {content rest : Bytes}

/-! ## What is read back -/

/-- A number as its text is read; what is not finite is printed as `null`. -/
def rereadNumber (x : Binary64) : Json :=
  match strtod (numberText x) with
  | some (y, _) => .number y
  | none => .null

mutual

/-- A value as its text is read: strings and names end at their first NUL, and numbers have been
through a decimal text. -/
def reread : Json → Json
  | .null => .null
  | .bool b => .bool b
  | .number x => rereadNumber x
  | .string s => .string (cString s)
  | .array items => .array (rereadItems items)
  | .object members => .object (rereadMembers members)

def rereadItems : List Json → List Json
  | [] => []
  | v :: vs => reread v :: rereadItems vs

def rereadMembers : List (Bytes × Json) → List (Bytes × Json)
  | [] => []
  | (name, v) :: ms => (cString name, reread v) :: rereadMembers ms

end

/-! ## The place in the buffer -/

theorem drop_add {offset : Nat} {s t : Bytes} (h : content.drop offset = s ++ t) :
    content.drop (offset + s.length) = t := by
  rw [← List.drop_drop, h, List.drop_left]

theorem getElem?_at {offset : Nat} {s t : Bytes} {c : UInt8}
    (h : content.drop offset = s ++ c :: t) : content[offset + s.length]? = some c :=
  (getElem?_of_drop (drop_add h)).1

theorem blank_nil : ∀ b ∈ ([] : Bytes), b ≤ 32 := fun _ hb => absurd hb List.not_mem_nil

/-- White space in front of a visible byte is skipped. -/
theorem skip_blank {offset : Nat} {ws t : Bytes} {c : UInt8}
    (h : content.drop offset = ws ++ c :: t) (hws : ∀ b ∈ ws, b ≤ 32) (hc : 32 < c) :
    bufferSkipWhitespace content offset = offset + ws.length := by
  have hlt := lt_of_getElem? (getElem?_at h)
  have htake : (content.drop offset).takeWhile (· ≤ 32) = ws := by
    rw [h, List.takeWhile_append_of_pos fun b hb => decide_eq_true (hws b hb),
      List.takeWhile_cons_of_neg (by simpa using hc), List.append_nil]
  unfold bufferSkipWhitespace
  rw [if_neg (by omega), htake]
  exact if_neg hlt.ne

theorem skip_none {offset : Nat} {t : Bytes} {c : UInt8} (h : content.drop offset = c :: t)
    (hc : 32 < c) : bufferSkipWhitespace content offset = offset :=
  skip_blank (t := t) h blank_nil hc

theorem startsWith_ne {offset : Nat} {c w : UInt8} {s word : Bytes}
    (h : content.drop offset = c :: s) (hne : w ≠ c) :
    startsWith content offset (w :: word) = false := by
  rw [startsWith, h, List.isPrefixOf_cons_cons, beq_false_of_ne hne, Bool.false_and]

theorem startsWith_self {offset : Nat} {word t : Bytes} (h : content.drop offset = word ++ t) :
    startsWith content offset word = true := by
  rw [startsWith, h]
  exact List.isPrefixOf_iff_prefix.mpr (List.prefix_append _ _)

/-- A byte that none of the three words begins with. -/
theorem parseValueWith_eq {array object : Nat → Parsed Json} {offset : Nat} {c : UInt8} {s : Bytes}
    (h : content.drop offset = c :: s) (hc : c ≠ 110 ∧ c ≠ 102 ∧ c ≠ 116) :
    parseValueWith content array object offset =
      if c = 34 then (parseString content offset).bind fun s offset => .ok (.string s) offset
      else if c = 45 ∨ isDigit c then parseNumber content offset
      else if c = 91 then array offset
      else if c = 123 then object offset
      else .fail := by
  have hnull : startsWith content offset (ascii "null") = false := startsWith_ne h hc.1.symm
  have hfalse : startsWith content offset (ascii "false") = false := startsWith_ne h hc.2.1.symm
  have htrue : startsWith content offset (ascii "true") = false := startsWith_ne h hc.2.2.symm
  rw [parseValueWith, hnull, hfalse, htrue, (getElem?_of_drop h).1]
  simp only [Bool.false_eq_true, if_false]

/-! ## Strings -/

theorem hexValue_hexDigitLower : ∀ n < 16, hexValue (hexDigitLower n) = some n := by decide

theorem closingQuote_hex {n : Nat} (hn : n < 16) (s : Bytes) :
    closingQuote (hexDigitLower n :: s) = (closingQuote s).map fun r => (r.1 + 1, r.2) := by
  have hval : hexValue (hexDigitLower n) ≠ none := by
    rw [hexValue_hexDigitLower n hn]
    exact Option.some_ne_none n
  exact closingQuote_plain (hexValue_ne hval).1 (hexValue_ne hval).2 s

/-- The first loop passes an escaped byte, and leaves a byte for it. -/
theorem closingQuote_escapeByte (c : UInt8) {s : Bytes} {n k : Nat}
    (h : closingQuote s = some (n, k)) :
    ∃ j < (escapeByte c).length,
      closingQuote (escapeByte c ++ s) = some (n + (escapeByte c).length, k + j) := by
  unfold escapeByte
  split
  · next hplain =>
    obtain ⟨-, hquote, hslash⟩ := of_decide_eq_true hplain
    exact ⟨0, Nat.one_pos, by rw [List.singleton_append, closingQuote_plain hquote hslash, h]; rfl⟩
  · cases hl : escapeLetter c with
    | some l => exact ⟨1, Nat.one_lt_two, by simp [closingQuote, h]⟩
    | none =>
      have hhigh : c.toNat / 16 < 16 := Nat.div_lt_of_lt_mul c.toNat_lt
      have hlow : c.toNat % 16 < 16 := Nat.mod_lt _ (by decide)
      refine ⟨1, by simp [hex4], ?_⟩
      have hfour : closingQuote (hex4 c ++ s) = some (n + 4, k) := by
        rw [hex4, List.cons_append, List.cons_append, List.cons_append, List.cons_append,
          List.nil_append, closingQuote_plain (by decide) (by decide),
          closingQuote_plain (by decide) (by decide), closingQuote_hex hhigh, closingQuote_hex hlow,
          h]
        rfl
      rw [List.cons_append, List.cons_append, closingQuote, hfour]
      rfl

theorem closingQuote_flatMap (s t : Bytes) :
    ∃ k, closingQuote (s.flatMap escapeByte ++ 34 :: t) = some ((s.flatMap escapeByte).length, k) ∧
      k + s.length ≤ (s.flatMap escapeByte).length := by
  induction s with
  | nil => exact ⟨0, by simp [closingQuote], Nat.le_refl _⟩
  | cons c s ih =>
    obtain ⟨k, hk, hle⟩ := ih
    obtain ⟨j, hj, hnext⟩ := closingQuote_escapeByte c hk
    refine ⟨k + j, ?_, ?_⟩
    · rw [List.flatMap_cons, List.append_assoc, hnext, List.length_append, Nat.add_comm]
    · rw [List.flatMap_cons, List.length_append, List.length_cons]
      omega

/-- The bytes of a text at an offset. -/
theorem getElem?_drop_cons {offset j : Nat} {s : Bytes} (h : content.drop offset = s) :
    content[offset + j]? = s[j]? := by
  rw [← h, List.getElem?_drop]

theorem parseHex4_eq {i a b c d : Nat} {w x y z : UInt8} {t : Bytes}
    (h : content.drop i = w :: x :: y :: z :: t) (hw : hexValue w = some a)
    (hx : hexValue x = some b) (hy : hexValue y = some c) (hz : hexValue z = some d) :
    parseHex4 content i = some ((((a * 16 + b) * 16 + c) * 16) + d) := by
  have h0 : content[i]? = some w := getElem?_drop_cons (j := 0) h
  have h1 : content[i + 1]? = some x := getElem?_drop_cons h
  have h2 : content[i + 2]? = some y := getElem?_drop_cons h
  have h3 : content[i + 3]? = some z := getElem?_drop_cons h
  simp [parseHex4, hexLoop, h0, h1, h2, h3, hw, hx, hy, hz, Nat.shiftLeft_eq]

/-- The escape of a control character. -/
theorem utf16LiteralToUtf8_hex4 {input inputEnd : Nat} {c : UInt8} {t : Bytes} (hc : c < 32)
    (h : content.drop input = 92 :: 117 :: hex4 c ++ t) (hend : input + 6 ≤ inputEnd) :
    utf16LiteralToUtf8 content input inputEnd = some (some ([c], 6)) := by
  have hsmall : c.toNat < 32 := UInt8.lt_iff_toNat_lt.mp hc
  have hzero : hexValue 48 = some 0 := by decide
  have hcode : parseHex4 content (input + 2) = some c.toNat := by
    have hdigits : content.drop (input + 2) = hex4 c ++ t := drop_add (s := [92, 117]) h
    rw [parseHex4_eq hdigits hzero hzero
      (hexValue_hexDigitLower (c.toNat / 16) (Nat.div_lt_of_lt_mul c.toNat_lt))
      (hexValue_hexDigitLower (c.toNat % 16) (Nat.mod_lt _ (by decide)))]
    congr 1
    omega
  have hbyte : encodeUtf8 c.toNat = some [c] := by
    have hmask : c.toNat &&& 0x7F = c.toNat := by
      rw [show 0x7F = 2 ^ 7 - 1 from rfl, Nat.and_two_pow_sub_one_eq_mod, Nat.mod_eq_of_lt]
      exact hsmall.trans (by decide)
    rw [encodeUtf8, if_pos (hsmall.trans (by decide)), hmask, UInt8.ofNat_toNat]
  rw [utf16LiteralToUtf8, if_neg (by omega), hcode, Option.bind_eq_bind, Option.bind_some,
    if_neg (by omega), if_neg (by omega), hbyte]
  rfl

/-- The second loop turns an escaped byte back. -/
theorem unescape_escapeByte {inputEnd fuel input room : Nat} {c : UInt8} {t : Bytes}
    (h : content.drop input = escapeByte c ++ t) (hend : input + (escapeByte c).length ≤ inputEnd)
    (hroom : 0 < room) :
    unescape content inputEnd (fuel + 1) input room =
      (unescape content inputEnd fuel (input + (escapeByte c).length) (room - 1)).map
        fun output => output.map fun s => c :: s := by
  have hwrite : ∀ {b : UInt8} {n : Nat}, b = c → n = (escapeByte c).length →
      (if [b].length ≤ room then
          (unescape content inputEnd fuel (input + n) (room - [b].length)).map
            fun output => output.map fun s => [b] ++ s
        else none) =
      (unescape content inputEnd fuel (input + (escapeByte c).length) (room - 1)).map
        fun output => output.map fun s => c :: s := by
    rintro b n rfl rfl
    exact if_pos hroom
  have hpos : 0 < (escapeByte c).length := by
    rw [length_escapeByte]
    exact Nat.succ_pos _
  rw [unescape]
  dsimp only
  rw [if_neg (by omega)]
  unfold escapeByte at h
  split at h
  · next hplain =>
    have hc := (of_decide_eq_true hplain).2.2
    rw [(getElem?_of_drop h).1, Option.bind_eq_bind, Option.bind_some, if_pos hc]
    exact hwrite rfl (by rw [escapeByte, if_pos hplain, List.length_singleton])
  · next hplain =>
    obtain ⟨hslash, hnext⟩ := getElem?_of_drop h
    rw [hslash, Option.bind_eq_bind, Option.bind_some, if_neg (not_not.mpr rfl)]
    cases hl : escapeLetter c with
    | some l =>
      rw [hl] at hnext
      have hback := escapeLetter_cases (P := fun c l => unescaped l = some c ∧ l ≠ 117)
        (by decide) hl
      rw [(getElem?_of_drop hnext).1, Option.bind_some, if_neg hback.2, hback.1]
      exact hwrite rfl (by rw [escapeByte, if_neg hplain, hl, List.length_cons, List.length_singleton])
    | none =>
      rw [hl] at hnext h
      have hlen : (escapeByte c).length = 6 := by
        rw [escapeByte, if_neg hplain, hl]
        rfl
      have hcontrol : c < 32 := (escapeLetter_none hl).mp (Bool.not_eq_true _ ▸ hplain)
      rw [(getElem?_of_drop hnext).1, Option.bind_some, if_pos rfl,
        utf16LiteralToUtf8_hex4 hcontrol h (by omega), Option.bind_eq_bind, Option.bind_some]
      exact hwrite rfl hlen.symm

theorem unescape_flatMap {s t : Bytes} {inputEnd fuel input room : Nat}
    (h : content.drop input = s.flatMap escapeByte ++ t)
    (hend : inputEnd = input + (s.flatMap escapeByte).length) (hfuel : s.length < fuel)
    (hroom : s.length < room) : unescape content inputEnd fuel input room = some (some s) := by
  induction s generalizing input fuel room with
  | nil =>
    obtain ⟨fuel, rfl⟩ := Nat.exists_eq_succ_of_ne_zero (Nat.ne_zero_of_lt hfuel)
    rw [unescape]
    dsimp only
    have hdone : inputEnd ≤ input := hend.le
    rw [if_pos hdone, if_pos (Nat.zero_lt_of_lt hroom)]
  | cons c s ih =>
    obtain ⟨fuel, rfl⟩ := Nat.exists_eq_succ_of_ne_zero (Nat.ne_zero_of_lt hfuel)
    rw [List.flatMap_cons, List.append_assoc] at h
    rw [List.flatMap_cons, List.length_append] at hend
    rw [List.length_cons] at hfuel hroom
    rw [Nat.succ_eq_add_one, unescape_escapeByte h (by omega) (by omega),
      ih (drop_add h) (by omega) (by omega) (by omega)]
    rfl

/-- A quoted string is read as the string. -/
theorem parseString_quote {offset : Nat} {s : Bytes} (h : content.drop offset = quote s ++ rest) :
    parseString content offset = .ok (cString s) (offset + (quote s).length) := by
  have hbody : content.drop (offset + 1) = (cString s).flatMap escapeByte ++ 34 :: rest := by
    have h' := drop_add (s := [34]) (t := (cString s).flatMap escapeByte ++ [34] ++ rest) h
    rwa [List.append_assoc, List.singleton_append] at h'
  obtain ⟨k, hclose, hle⟩ := closingQuote_flatMap (cString s) rest
  rw [parseString, (getElem?_of_drop h).1]
  dsimp only
  rw [if_neg (not_not.mpr rfl), hbody, hclose]
  dsimp only
  rw [unescape_flatMap hbody rfl (by omega) (by omega)]
  have hend : offset + 1 + ((cString s).flatMap escapeByte).length + 1 =
      offset + (quote s).length := by
    simp only [quote, List.length_append, List.length_cons, List.length_nil]
    omega
  rw [hend]

/-! ## Numbers -/

/-- No byte that numbers are made of comes first. -/
def Breaks (rest : Bytes) : Prop := ∀ c ∈ rest.head?, numberByte c = false

/-- What follows is not read as part of the value. Only a finite number has no end of its own. -/
def Follow (v : Json) (rest : Bytes) : Prop :=
  ∀ x : Binary64, v = .number x → x.isFinite = true → Breaks rest

theorem numberByte_digits {ds : Bytes} (h : isDigits ds = true) : ∀ c ∈ ds, numberByte c = true := by
  obtain ⟨-, hall⟩ : ds ≠ [] ∧ ∀ c ∈ ds, isDigit c = true := by simpa [isDigits] using h
  exact fun c hc => decide_eq_true (.inl (hall c hc))

theorem numberByte_fraction {fs : Bytes} (h : ∀ c ∈ fs, isDigit c = true) :
    ∀ c ∈ fraction fs, numberByte c = true := by
  intro c hc
  unfold fraction at hc
  split at hc
  · exact absurd hc List.not_mem_nil
  · rcases List.mem_cons.mp hc with rfl | hc
    · decide
    · exact decide_eq_true (.inl (h c ((List.rdropWhile_prefix _ _).subset hc)))

theorem numberByte_exponent (x : Int) : ∀ c ∈ exponent x, numberByte c = true := by
  intro c hc
  rcases List.mem_cons.mp hc with rfl | hc
  · decide
  rcases List.mem_cons.mp hc with rfl | hc
  · split <;> decide
  split at hc
  · rcases List.mem_cons.mp hc with rfl | hc
    · decide
    · exact numberByte_digits (decimal_digits _) c hc
  · exact numberByte_digits (decimal_digits _) c hc

theorem numberByte_general (p n d : Nat) : ∀ c ∈ general p n d, numberByte c = true := by
  unfold general
  dsimp only
  intro c hc
  split at hc
  · rcases List.mem_append.mp hc with hc | hc
    · exact numberByte_digits (decimal_digits _) c hc
    · exact numberByte_fraction (padded_digits _ _) c hc
  · rcases List.mem_append.mp hc with hc | hc
    · rcases List.mem_append.mp hc with hc | hc
      · exact numberByte_digits (decimal_digits _) c hc
      · exact numberByte_fraction (padded_digits _ _) c hc
    · exact numberByte_exponent _ c hc

theorem numberByte_signed {s : Bytes} (neg : Bool) (h : ∀ c ∈ s, numberByte c = true) :
    ∀ c ∈ Printf.signed neg s, numberByte c = true := by
  cases neg with
  | false => exact h
  | true => exact List.forall_mem_cons.mpr ⟨by decide, h⟩

/-- A finite number begins with a digit or a minus, and `parse_number` copies all of it. -/
theorem numberText_bytes {x : Binary64} (hx : x.isFinite = true) :
    (∀ c ∈ numberText x, numberByte c = true) ∧
      ∃ c s, numberText x = c :: s ∧ (c = 45 ∨ isDigit c = true) := by
  have hsigned : ∀ (neg : Bool) (n : Nat) (tail : Bytes),
      ∃ c s, Printf.signed neg (decimal n ++ tail) = c :: s ∧ (c = 45 ∨ isDigit c = true) := by
    intro neg n tail
    obtain ⟨hne, hall⟩ : decimal n ≠ [] ∧ ∀ c ∈ decimal n, isDigit c = true := by
      simpa [isDigits] using decimal_digits n
    obtain ⟨c, s, hs⟩ := List.exists_cons_of_ne_nil hne
    cases neg with
    | true => exact ⟨45, _, rfl, .inl rfl⟩
    | false => exact ⟨c, s ++ tail, by rw [hs]; rfl, .inr (hall c (by rw [hs]; simp))⟩
  have hgeneral : ∀ p, (∀ c ∈ formatG p x, numberByte c = true) ∧
      ∃ c s, formatG p x = c :: s ∧ (c = 45 ∨ isDigit c = true) := by
    intro p
    cases x with
    | inf neg => cases hx
    | nan neg => cases hx
    | finite neg mant scale =>
      obtain ⟨m, tail, hgen, -⟩ := isNumberTail_general p (mant.val * 2 ^ scale.val) (2 ^ 1074)
      refine ⟨numberByte_signed neg (numberByte_general _ _ _), ?_⟩
      rw [formatG, hgen]
      exact hsigned neg m tail
  rcases numberText_cases hx with ⟨-, htext⟩ | ⟨-, -, -, htext⟩ | htext
  · rw [htext]
    refine ⟨numberByte_signed _ (numberByte_digits (decimal_digits _)), ?_⟩
    simpa [decimalInt] using hsigned (valueint x < 0) (valueint x).natAbs []
  · rw [htext]
    exact hgeneral 15
  · rw [htext]
    exact hgeneral 17

theorem takeWhile_numberByte {s : Bytes} (hs : ∀ c ∈ s, numberByte c = true)
    (hrest : Breaks rest) : (s ++ rest).takeWhile numberByte = s := by
  have hnil : rest.takeWhile numberByte = [] := by
    cases rest with
    | nil => rfl
    | cons c t => exact List.takeWhile_cons_of_neg (by simp [hrest c rfl])
  rw [List.takeWhile_append_of_pos hs, hnil, List.append_nil]

theorem parseValueWith_number {array object : Nat → Parsed Json} {offset : Nat} {x : Binary64}
    (h : content.drop offset = numberText x ++ rest) (hrest : Follow (.number x) rest) :
    parseValueWith content array object offset =
      .ok (rereadNumber x) (offset + (numberText x).length) := by
  cases hx : x.isFinite with
  | false =>
    have htext : numberText x = ascii "null" := by
      rw [numberText, hx]
      rfl
    have hnone : rereadNumber x = .null := by
      rw [rereadNumber, htext]
      rfl
    rw [parseValueWith, if_pos (startsWith_self (htext ▸ h)), hnone, htext]
    rfl
  | true =>
    obtain ⟨hbytes, c, s, hcons, hc⟩ := numberText_bytes hx
    obtain ⟨-, y, hy, -⟩ := numberText_reread hx
    have hhead : content.drop offset = c :: (s ++ rest) := by rw [h, hcons, List.cons_append]
    have hrange : c ≠ 110 ∧ c ≠ 102 ∧ c ≠ 116 ∧ c ≠ 34 := by
      refine ⟨?_, ?_, ?_, ?_⟩ <;> rintro rfl <;> exact absurd hc (by decide)
    rw [parseValueWith_eq hhead ⟨hrange.1, hrange.2.1, hrange.2.2.1⟩, if_neg hrange.2.2.2,
      if_pos hc, parseNumber, h, takeWhile_numberByte hbytes (hrest x rfl hx), hy, rereadNumber,
      hy]
    rfl

theorem rereadNumber_ofInt {n : Int} (hlow : INT_MIN ≤ n) (hhigh : n ≤ INT_MAX) :
    rereadNumber (.ofInt n) = .number (.ofInt n) := by
  unfold INT_MIN at hlow
  unfold INT_MAX at hhigh
  rw [rereadNumber, numberText_ofInt hlow hhigh, strtod_decimalInt (by omega)]

/-! ## The text has no NUL -/

section Plain

variable {format : Bool} {depth : Nat}

theorem numberText_ne (x : Binary64) : (0 : UInt8) ∉ numberText x := by
  intro h0
  cases hx : x.isFinite with
  | false =>
    have htext : numberText x = ascii "null" := by
      rw [numberText, hx]
      rfl
    rw [htext] at h0
    exact absurd h0 (by decide)
  | true => exact absurd ((numberText_bytes hx).1 0 h0) (by decide)

theorem spaced_ne {s : Bytes} (hs : (0 : UInt8) ∉ s) : (0 : UInt8) ∉ spaced format s := by
  cases format with
  | false => exact List.not_mem_nil
  | true => exact hs

theorem tabs_ne (n : Nat) : (0 : UInt8) ∉ tabs n := fun h0 =>
  absurd (List.eq_of_mem_replicate h0) (by decide)

theorem renderItems_ne {items : List Json}
    (h : ∀ v ∈ items, ∀ depth, (0 : UInt8) ∉ render format depth v) :
    (0 : UInt8) ∉ renderItems format depth items := by
  induction items with
  | nil => exact List.not_mem_nil
  | cons v vs ih =>
    obtain ⟨hv, hvs⟩ := List.forall_mem_cons.mp h
    have hcomma : (0 : UInt8) ∉ if vs.isEmpty then [] else 44 :: spaced format [32] := by
      split
      · exact List.not_mem_nil
      · simpa using spaced_ne (s := [32]) (by decide)
    rw [renderItems, List.mem_append, List.mem_append, not_or, not_or]
    exact ⟨⟨hv depth, hcomma⟩, ih hvs⟩

theorem renderMembers_ne {members : List (Bytes × Json)}
    (h : ∀ m ∈ members, ∀ depth, (0 : UInt8) ∉ render format depth m.2) :
    (0 : UInt8) ∉ renderMembers format depth members := by
  induction members with
  | nil => exact List.not_mem_nil
  | cons m ms ih =>
    obtain ⟨hv, hms⟩ := List.forall_mem_cons.mp h
    have hcomma : (0 : UInt8) ∉ if ms.isEmpty then [] else [44] := by
      split <;> decide
    have htab : (0 : UInt8) ∉ 58 :: spaced format [9] := by
      simpa using spaced_ne (s := [9]) (by decide)
    rw [renderMembers]
    simp only [List.mem_append, not_or]
    exact ⟨⟨⟨⟨⟨⟨spaced_ne (tabs_ne depth), quote_ne m.1⟩, htab⟩, hv depth⟩, hcomma⟩,
      spaced_ne (by decide)⟩, ih hms⟩

/-- A text is a C string. -/
theorem render_ne (v : Json) (depth : Nat) : (0 : UInt8) ∉ render format depth v := by
  induction v using json_induct generalizing depth with
  | null => exact (by decide : (0 : UInt8) ∉ ascii "null")
  | bool b =>
    cases b
    · exact (by decide : (0 : UInt8) ∉ ascii "false")
    · exact (by decide : (0 : UInt8) ∉ ascii "true")
  | number x => exact numberText_ne x
  | string s => exact quote_ne s
  | array items ih => simpa [render] using renderItems_ne ih
  | object members ih =>
    have hline : (0 : UInt8) ∉ spaced format [10] := spaced_ne (by decide)
    simpa [render] using ⟨hline, renderMembers_ne ih, spaced_ne (tabs_ne depth)⟩

end Plain

/-! ## Values -/

section Values

variable {format : Bool} {depth limit : Nat}

/-- A text begins with a visible byte that closes nothing and begins no byte order mark. -/
theorem render_head (format : Bool) (depth : Nat) (v : Json) :
    ∃ c t, render format depth v = c :: t ∧ 32 < c ∧ c ≠ 93 ∧ c ≠ 125 ∧ c ≠ 0xEF := by
  cases v with
  | null => exact ⟨_, _, rfl, by decide⟩
  | bool b => cases b <;> exact ⟨_, _, rfl, by decide⟩
  | number x =>
    cases hx : x.isFinite with
    | false =>
      refine ⟨110, ascii "ull", ?_, by decide⟩
      rw [render, numberText, hx]
      rfl
    | true =>
      obtain ⟨-, c, s, hcons, hc⟩ := numberText_bytes hx
      refine ⟨c, s, hcons, ?_⟩
      rcases hc with rfl | hc
      · decide
      · obtain ⟨hlow, hhigh⟩ := of_decide_eq_true hc
        refine ⟨UInt8.lt_of_lt_of_le (by decide) hlow, ?_, ?_, ?_⟩ <;> rintro rfl <;>
          exact absurd hhigh (by decide)
  | string s => exact ⟨_, _, rfl, by decide⟩
  | array items => exact ⟨_, _, rfl, by decide⟩
  | object members => exact ⟨_, _, rfl, by decide⟩

/-- A value is read back from its text, unless it is nested too deeply. -/
def ReadsBack (content : Bytes) (format : Bool) (v : Json) : Prop :=
  ∀ limit depth offset rest, content.drop offset = render format depth v ++ rest → Follow v rest →
    parseValue content limit offset =
      if nesting v ≤ limit then .ok (reread v) (offset + (render format depth v).length) else .fail

theorem spaced_blank {s : Bytes} (hs : ∀ b ∈ s, b ≤ 32) : ∀ b ∈ spaced format s, b ≤ 32 := by
  cases format with
  | false => exact fun b hb => absurd hb List.not_mem_nil
  | true => exact hs

theorem spaced_blank_one {c : UInt8} (hc : c ≤ 32) : ∀ b ∈ spaced format [c], b ≤ 32 :=
  spaced_blank (List.forall_mem_singleton.mpr hc)

theorem tabs_blank (n : Nat) : ∀ b ∈ tabs n, b ≤ 32 := by
  intro b hb
  rw [List.eq_of_mem_replicate hb]
  decide

/-- A visible byte in front of which a value ends. -/
theorem breaks_cons {c : UInt8} (hc : numberByte c = false) (t : Bytes) : Breaks (c :: t) := by
  rintro d hd
  obtain rfl := Option.some.inj hd
  exact hc

theorem Breaks.follow (h : Breaks rest) (v : Json) : Follow v rest := fun _ _ _ => h

theorem follow_nil (v : Json) : Follow v [] := Breaks.follow (fun _ hc => by cases hc) v

/-- White space in front of a bracket or a brace. -/
theorem breaks_blank {ws : Bytes} (hws : ∀ b ∈ ws, b ≤ 32) {c : UInt8} (hc : numberByte c = false)
    (t : Bytes) : Breaks (ws ++ c :: t) := by
  cases ws with
  | nil => exact breaks_cons hc t
  | cons b ws =>
    refine breaks_cons ?_ _
    rw [← Bool.not_eq_true]
    intro hb
    have hle := hws b (List.mem_cons_self ..)
    have hgt : 32 < b := by
      rcases of_decide_eq_true hb with hdigit | rfl | rfl | rfl | rfl | rfl
      · exact UInt8.lt_of_lt_of_le (by decide) (of_decide_eq_true hdigit).1
      all_goals decide
    exact absurd hgt (UInt8.not_lt.mpr hle)

/-- The loop of `parse_array` on the items, from the byte in front of them to the bracket. -/
theorem parseElements_render {items : List Json} (h : ∀ v ∈ items, ReadsBack content format v)
    (hne : items ≠ []) {fuel offset : Nat} {ws : Bytes} (hws : ∀ b ∈ ws, b ≤ 32)
    (hfuel : items.length ≤ fuel)
    (hd : content.drop (offset + 1) = ws ++ (renderItems format depth items ++ 93 :: rest)) :
    parseElements content (parseValue content limit) fuel offset =
      if nestingItems items ≤ limit then
        .ok (rereadItems items) (offset + 1 + ws.length + (renderItems format depth items).length)
      else .fail := by
  induction items generalizing fuel offset ws with
  | nil => exact absurd rfl hne
  | cons v vs ih =>
    obtain ⟨hv, hvs⟩ := List.forall_mem_cons.mp h
    obtain ⟨fuel, rfl⟩ := Nat.exists_eq_succ_of_ne_zero (Nat.ne_zero_of_lt hfuel)
    obtain ⟨c, t, hhead, hvisible, -, -⟩ := render_head format depth v
    rw [renderItems, List.append_assoc, List.append_assoc] at hd
    have hskip : bufferSkipWhitespace content (offset + 1) = offset + 1 + ws.length :=
      skip_blank (t := t ++ _) (by rw [hd, hhead]; rfl) hws hvisible
    have hvalue := drop_add hd
    rw [parseElements, hskip]
    generalize offset + 1 + ws.length = start at hvalue ⊢
    have hnest : nestingItems (v :: vs) ≤ limit ↔ nesting v ≤ limit ∧ nestingItems vs ≤ limit :=
      Nat.max_le
    cases vs with
    | nil =>
      have htext : renderItems format depth [v] = render format depth v := by
        simp [renderItems]
      have hvalue : content.drop start = render format depth v ++ 93 :: rest := hvalue
      have hclose := drop_add hvalue
      rw [hv limit depth start _ hvalue ((breaks_cons (by decide) rest).follow v), htext]
      by_cases hle : nesting v ≤ limit
      · rw [if_pos hle, if_pos (hnest.mpr ⟨hle, Nat.zero_le _⟩), Parsed.bind]
        dsimp only
        rw [skip_none hclose (by decide), (getElem?_of_drop hclose).1]
        rfl
      · rw [if_neg hle, if_neg fun h => hle (hnest.mp h).1]
        rfl
    | cons w ws' =>
      have htext : renderItems format depth (v :: w :: ws') =
          render format depth v ++ (44 :: spaced format [32] ++ renderItems format depth (w :: ws')) := by
        rw [renderItems, List.append_assoc]
        rfl
      have hvalue : content.drop start = render format depth v ++
          (44 :: spaced format [32] ++ (renderItems format depth (w :: ws') ++ 93 :: rest)) := hvalue
      have hcomma := drop_add hvalue
      rw [hv limit depth start _ hvalue ((breaks_cons (by decide) _).follow v), htext]
      by_cases hle : nesting v ≤ limit
      · rw [if_pos hle, Parsed.bind]
        dsimp only
        rw [skip_none hcomma (by decide), (getElem?_of_drop hcomma).1, if_pos rfl,
          ih hvs (List.cons_ne_nil _ _) (spaced_blank_one (by decide))
            (Nat.le_of_succ_le_succ hfuel) (getElem?_of_drop hcomma).2]
        by_cases hle' : nestingItems (w :: ws') ≤ limit
        · rw [if_pos hle', if_pos (hnest.mpr ⟨hle, hle'⟩), Parsed.bind]
          simp only [List.length_append, List.length_cons, rereadItems]
          congr 1
          omega
        · rw [if_neg hle', if_neg fun h => hle' (hnest.mp h).2]
          rfl
      · rw [if_neg hle, if_neg fun h => hle (hnest.mp h).1]
        rfl

theorem length_renderItems (format : Bool) (depth : Nat) (items : List Json) :
    items.length ≤ (renderItems format depth items).length := by
  induction items with
  | nil => exact Nat.zero_le _
  | cons v vs ih =>
    obtain ⟨c, t, hhead, -⟩ := render_head format depth v
    rw [renderItems, hhead]
    simp only [List.length_append, List.length_cons]
    omega

theorem parseValueWith_bracket {array object : Nat → Parsed Json} {offset : Nat} {s : Bytes}
    (h : content.drop offset = 91 :: s) :
    parseValueWith content array object offset = array offset :=
  parseValueWith_eq h (by decide)

theorem parseValueWith_brace {array object : Nat → Parsed Json} {offset : Nat} {s : Bytes}
    (h : content.drop offset = 123 :: s) :
    parseValueWith content array object offset = object offset :=
  parseValueWith_eq h (by decide)

theorem readsBack_array {items : List Json} (h : ∀ v ∈ items, ReadsBack content format v) :
    ReadsBack content format (.array items) := by
  intro limit depth offset rest hd _
  have hlen : (render format depth (.array items)).length =
      (renderItems format (depth + 1) items).length + 2 := by
    rw [render, List.length_append, List.length_cons, List.length_singleton]
  have hbracket : content.drop offset =
      91 :: (renderItems format (depth + 1) items ++ 93 :: rest) := by
    rw [hd, render, List.cons_append, List.cons_append, List.append_assoc]
    rfl
  obtain ⟨hget, hitems⟩ := getElem?_of_drop hbracket
  cases limit with
  | zero => exact parseValueWith_bracket hbracket
  | succ limit =>
    have hnest : nesting (.array items) ≤ limit + 1 ↔ nestingItems items ≤ limit :=
      Nat.add_le_add_iff_right
    rw [parseValue, parseValueWith_bracket hbracket, parseArray, hget]
    dsimp only
    rw [if_neg (not_not.mpr rfl)]
    cases items with
    | nil =>
      have hclose : content.drop (offset + 1) = 93 :: rest := hitems
      rw [skip_none hclose (by decide), (getElem?_of_drop hclose).1, if_pos rfl, if_pos
        (hnest.mpr (Nat.zero_le _))]
      rfl
    | cons v vs =>
      obtain ⟨c, t, hhead, hvisible, hne, -⟩ := render_head format (depth + 1) v
      have hfirst : content.drop (offset + 1) = c :: (t ++ ((if vs.isEmpty then [] else
          44 :: spaced format [32]) ++ renderItems format (depth + 1) vs) ++ 93 :: rest) := by
        rw [hitems, renderItems, hhead]
        simp
      have hin := lt_of_getElem? (getElem?_of_drop hfirst).1
      have hfuel : (v :: vs).length ≤ content.length := by
        have hitemslen := length_renderItems format (depth + 1) (v :: vs)
        have hdrop := congrArg List.length hitems
        rw [List.length_drop, List.length_append] at hdrop
        omega
      rw [skip_none hfirst hvisible, (getElem?_of_drop hfirst).1,
        if_neg fun he => hne (Option.some.inj he), if_neg (Nat.not_le.mpr hin), Nat.add_sub_cancel,
        parseElements_render h (List.cons_ne_nil _ _) blank_nil hfuel hitems]
      by_cases hle : nestingItems (v :: vs) ≤ limit
      · rw [if_pos hle, if_pos (hnest.mpr hle), hlen, Parsed.bind, List.length_nil]
        congr 1
        omega
      · rw [if_neg hle, if_neg fun h => hle (hnest.mp h)]
        rfl

/-- The text of members without the tabs in front of the first name, which `parse_object` has
skipped already. -/
def membersBody (format : Bool) (depth : Nat) (members : List (Bytes × Json)) : Bytes :=
  (renderMembers format depth members).drop (spaced format (tabs depth)).length

theorem membersBody_cons (format : Bool) (depth : Nat) (name : Bytes) (v : Json)
    (ms : List (Bytes × Json)) :
    membersBody format depth ((name, v) :: ms) =
      quote name ++ (58 :: spaced format [9] ++ (render format depth v ++
        ((if ms.isEmpty then [] else [44]) ++ spaced format [10] ++
          renderMembers format depth ms))) := by
  rw [membersBody, renderMembers]
  simp only [List.append_assoc]
  rw [List.drop_left]

theorem renderMembers_eq (format : Bool) (depth : Nat) {members : List (Bytes × Json)}
    (hne : members ≠ []) :
    renderMembers format depth members =
      spaced format (tabs depth) ++ membersBody format depth members := by
  obtain ⟨⟨name, v⟩, ms, rfl⟩ := List.exists_cons_of_ne_nil hne
  rw [membersBody_cons, renderMembers]
  simp only [List.append_assoc]

/-- The loop of `parse_object` on the members, from the byte in front of them to the brace. -/
theorem parseMembers_render {members : List (Bytes × Json)}
    (h : ∀ m ∈ members, ReadsBack content format m.2) (hne : members ≠ []) {fuel offset : Nat}
    {ws close : Bytes} (hws : ∀ b ∈ ws, b ≤ 32) (hclose : ∀ b ∈ close, b ≤ 32)
    (hfuel : members.length ≤ fuel)
    (hd : content.drop (offset + 1) =
      ws ++ (membersBody format depth members ++ (close ++ 125 :: rest))) :
    parseMembers content (parseValue content limit) fuel offset =
      if nestingMembers members ≤ limit then
        .ok (rereadMembers members) (offset + 1 + ws.length +
          (membersBody format depth members).length + close.length)
      else .fail := by
  induction members generalizing fuel offset ws with
  | nil => exact absurd rfl hne
  | cons m ms ih =>
    obtain ⟨name, v⟩ := m
    obtain ⟨hv, hms⟩ := List.forall_mem_cons.mp h
    obtain ⟨fuel, rfl⟩ := Nat.exists_eq_succ_of_ne_zero (Nat.ne_zero_of_lt hfuel)
    obtain ⟨c, t, hhead, hvisible, -, -⟩ := render_head format depth v
    have htext := membersBody_cons format depth name v ms
    -- the text behind the value
    generalize htail : (if ms.isEmpty then [] else [44]) ++ spaced format [10] ++
      renderMembers format depth ms = tail at htext
    rw [htext, List.append_assoc, List.append_assoc, List.append_assoc] at hd
    have hin : offset + 1 < content.length := by
      have hlen := congrArg List.length hd
      have hpos : 0 < (quote name).length := by simp [quote]
      rw [List.length_drop, List.length_append, List.length_append] at hlen
      omega
    have hquote := drop_add hd
    rw [parseMembers, if_neg (Nat.not_le.mpr hin), skip_blank hd hws (by decide),
      parseString_quote hquote]
    have hcolon := drop_add hquote
    have hlength : (membersBody format depth ((name, v) :: ms)).length =
        (quote name).length +
          ((58 :: spaced format [9]).length + (render format depth v).length) + tail.length := by
      rw [htext]
      simp only [List.length_append]
      omega
    rw [hlength]
    generalize hstart : offset + 1 + ws.length + (quote name).length = start at hcolon ⊢
    rw [Parsed.bind]
    dsimp only
    obtain ⟨hget, hspace⟩ := getElem?_of_drop hcolon
    rw [skip_none hcolon (by decide), hget, if_neg (not_not.mpr rfl),
      skip_blank (t := t ++ (tail ++ (close ++ 125 :: rest))) (by rw [hspace, hhead]; rfl)
        (@spaced_blank_one format _ (by decide)) hvisible]
    have hvalue := drop_add hspace
    have hnest : nestingMembers ((name, v) :: ms) ≤ limit ↔
        nesting v ≤ limit ∧ nestingMembers ms ≤ limit := Nat.max_le
    have hline : ∀ b ∈ spaced format [10], b ≤ 32 := spaced_blank_one (by decide)
    have hspaces : ∀ b ∈ spaced format [10] ++ close, b ≤ 32 := fun b hb =>
      (List.mem_append.mp hb).elim (hline b) (hclose b)
    have hbreaks : Breaks (tail ++ (close ++ 125 :: rest)) := by
      rw [← htail]
      cases ms with
      | nil => simpa [renderMembers] using breaks_blank hspaces (by decide) rest
      | cons m' ms' => exact breaks_cons (by decide) _
    rw [hv limit depth _ _ hvalue (hbreaks.follow v)]
    by_cases hle : nesting v ≤ limit
    · rw [if_pos hle, Parsed.bind]
      dsimp only
      have hafter := drop_add hvalue
      generalize hend : start + 1 + (spaced format [9]).length + (render format depth v).length =
        after at hafter ⊢
      cases ms with
      | nil =>
        have hbrace : content.drop after = (spaced format [10] ++ close) ++ 125 :: rest := by
          rw [hafter, ← htail]
          simp [renderMembers]
        have htaillen : tail.length = (spaced format [10]).length := by
          rw [← htail]
          simp [renderMembers]
        rw [skip_blank hbrace hspaces (by decide), getElem?_at hbrace, if_neg (by decide),
          if_pos rfl, if_pos (hnest.mpr ⟨hle, Nat.zero_le _⟩), htaillen]
        simp only [List.length_append, List.length_cons, rereadMembers]
        congr 1
        omega
      | cons m' ms' =>
        have hsplit := renderMembers_eq format depth (List.cons_ne_nil m' ms')
        have hcomma : content.drop after =
            44 :: ((spaced format [10] ++ spaced format (tabs depth)) ++
              (membersBody format depth (m' :: ms') ++ (close ++ 125 :: rest))) := by
          rw [hafter, ← htail, hsplit]
          simp
        have hindent : ∀ b ∈ spaced format [10] ++ spaced format (tabs depth), b ≤ 32 :=
          fun b hb => (List.mem_append.mp hb).elim (hline b) (spaced_blank (tabs_blank depth) b)
        have htaillen : tail.length = 1 + (spaced format [10]).length +
            ((spaced format (tabs depth)).length + (membersBody format depth (m' :: ms')).length) := by
          rw [← htail, hsplit]
          simp only [List.length_append]
          rfl
        rw [skip_none hcomma (by decide), (getElem?_of_drop hcomma).1, if_pos rfl,
          ih hms (List.cons_ne_nil _ _) hindent (Nat.le_of_succ_le_succ hfuel)
            (getElem?_of_drop hcomma).2]
        by_cases hle' : nestingMembers (m' :: ms') ≤ limit
        · rw [if_pos hle', if_pos (hnest.mpr ⟨hle, hle'⟩), Parsed.bind, htaillen]
          simp only [List.length_append, List.length_cons, rereadMembers]
          congr 1
          omega
        · rw [if_neg hle', if_neg fun h => hle' (hnest.mp h).2]
          rfl
    · rw [if_neg hle, if_neg fun h => hle (hnest.mp h).1]
      rfl

theorem length_renderMembers (format : Bool) (depth : Nat) (members : List (Bytes × Json)) :
    members.length ≤ (renderMembers format depth members).length := by
  induction members with
  | nil => exact Nat.zero_le _
  | cons m ms ih =>
    rw [renderMembers]
    simp only [List.length_append, List.length_cons]
    omega

theorem readsBack_object {members : List (Bytes × Json)}
    (h : ∀ m ∈ members, ReadsBack content format m.2) :
    ReadsBack content format (.object members) := by
  intro limit depth offset rest hd _
  have hlen : (render format depth (.object members)).length =
      1 + (spaced format [10]).length + (renderMembers format (depth + 1) members).length +
        (spaced format (tabs depth)).length + 1 := by
    rw [render]
    simp only [List.length_append, List.length_cons, List.length_nil]
    omega
  have hbrace : content.drop offset = 123 :: (spaced format [10] ++
      (renderMembers format (depth + 1) members ++ (spaced format (tabs depth) ++ 125 :: rest))) := by
    rw [hd, render]
    simp
  obtain ⟨hget, hmembers⟩ := getElem?_of_drop hbrace
  have hline : ∀ b ∈ spaced format [10], b ≤ 32 := spaced_blank_one (by decide)
  have htabs : ∀ b ∈ spaced format (tabs depth), b ≤ 32 := spaced_blank (tabs_blank depth)
  cases limit with
  | zero => exact parseValueWith_brace hbrace
  | succ limit =>
    have hnest : nesting (.object members) ≤ limit + 1 ↔ nestingMembers members ≤ limit :=
      Nat.add_le_add_iff_right
    rw [parseValue, parseValueWith_brace hbrace, parseObject, hget, if_neg (not_not.mpr rfl)]
    dsimp only
    cases members with
    | nil =>
      have hspaces : ∀ b ∈ spaced format [10] ++ spaced format (tabs depth), b ≤ 32 := fun b hb =>
        (List.mem_append.mp hb).elim (hline b) (htabs b)
      have hclose : content.drop (offset + 1) =
          (spaced format [10] ++ spaced format (tabs depth)) ++ 125 :: rest := by
        rw [hmembers]
        simp [renderMembers]
      rw [skip_blank hclose hspaces (by decide), getElem?_at hclose, if_pos rfl,
        if_pos (hnest.mpr (Nat.zero_le _)), hlen, renderMembers]
      simp only [List.length_append, List.length_nil, reread, rereadMembers]
      congr 1
      omega
    | cons m ms =>
      obtain ⟨name, v⟩ := m
      have hsplit := renderMembers_eq format (depth + 1) (List.cons_ne_nil (name, v) ms)
      have hspaces : ∀ b ∈ spaced format [10] ++ spaced format (tabs (depth + 1)), b ≤ 32 :=
        fun b hb => (List.mem_append.mp hb).elim (hline b) (spaced_blank (tabs_blank _) b)
      have hbody : content.drop (offset + 1) =
          (spaced format [10] ++ spaced format (tabs (depth + 1))) ++
            (membersBody format (depth + 1) ((name, v) :: ms) ++
              (spaced format (tabs depth) ++ 125 :: rest)) := by
        rw [hmembers, hsplit]
        simp only [List.append_assoc]
      obtain ⟨t, hquote⟩ : ∃ t, membersBody format (depth + 1) ((name, v) :: ms) = 34 :: t :=
        ⟨_, membersBody_cons format (depth + 1) name v ms⟩
      have hfirst : content.drop (offset + 1) =
          (spaced format [10] ++ spaced format (tabs (depth + 1))) ++
            34 :: (t ++ (spaced format (tabs depth) ++ 125 :: rest)) := by
        rw [hbody, hquote]
        rfl
      have hin := lt_of_getElem? (getElem?_at hfirst)
      have hfuel : ((name, v) :: ms).length ≤ content.length := by
        have hle := length_renderMembers format (depth + 1) ((name, v) :: ms)
        have hdrop := congrArg List.length hmembers
        rw [List.length_drop, List.length_append, List.length_append] at hdrop
        omega
      have hlen' := congrArg List.length hsplit
      rw [List.length_append] at hlen'
      have hback := drop_add hbody
      rw [skip_blank hfirst hspaces (by decide), getElem?_at hfirst, if_neg (by decide),
        if_neg (Nat.not_le.mpr hin)]
      rw [List.length_append] at hback ⊢
      generalize hstart : offset + 1 + ((spaced format [10]).length +
        (spaced format (tabs (depth + 1))).length) = start at hback ⊢
      obtain ⟨start, rfl⟩ := Nat.exists_eq_succ_of_ne_zero (n := start) (by omega)
      rw [Nat.succ_eq_add_one, Nat.add_sub_cancel, parseMembers_render h
        (List.cons_ne_nil _ _) blank_nil htabs hfuel hback]
      by_cases hle : nestingMembers ((name, v) :: ms) ≤ limit
      · rw [if_pos hle, if_pos (hnest.mpr hle), hlen, Parsed.bind, List.length_nil]
        congr 1
        omega
      · rw [if_neg hle, if_neg fun h => hle (hnest.mp h)]
        rfl

theorem parseValue_render (v : Json) : ReadsBack content format v := by
  induction v using json_induct with
  | null =>
    intro limit depth offset rest hd _
    have hword : startsWith content offset (ascii "null") = true := startsWith_self hd
    have hnull : ∀ array object, parseValueWith content array object offset =
        .ok .null (offset + 4) := fun _ _ => by rw [parseValueWith, if_pos hword]
    cases limit <;> exact hnull _ _
  | bool b =>
    intro limit depth offset rest hd _
    have hbool : ∀ array object, parseValueWith content array object offset =
        .ok (.bool b) (offset + (render format depth (.bool b)).length) := by
      intro array object
      cases b with
      | true =>
        have htrue : content.drop offset = 116 :: (ascii "rue" ++ rest) := hd
        have hn : startsWith content offset (ascii "null") = false := startsWith_ne htrue (by decide)
        have hf : startsWith content offset (ascii "false") = false :=
          startsWith_ne htrue (by decide)
        have hword : startsWith content offset (ascii "true") = true := startsWith_self hd
        rw [parseValueWith, hn, hf, if_neg Bool.false_ne_true, if_neg Bool.false_ne_true,
          if_pos hword]
        rfl
      | false =>
        have hfalse : content.drop offset = 102 :: (ascii "alse" ++ rest) := hd
        have hn : startsWith content offset (ascii "null") = false :=
          startsWith_ne hfalse (by decide)
        have hword : startsWith content offset (ascii "false") = true := startsWith_self hd
        rw [parseValueWith, hn, if_neg Bool.false_ne_true, if_pos hword]
        rfl
    cases limit <;> exact hbool _ _
  | number x =>
    intro limit depth offset rest hd hrest
    cases limit <;> exact parseValueWith_number hd hrest
  | string s =>
    intro limit depth offset rest hd _
    have hquote : content.drop offset = 34 :: ((cString s).flatMap escapeByte ++ [34] ++ rest) := hd
    have hstring : ∀ array object, parseValueWith content array object offset =
        .ok (.string (cString s)) (offset + (quote s).length) := by
      intro array object
      rw [parseValueWith_eq hquote (by decide), if_pos rfl, parseString_quote hd]
      rfl
    cases limit <;> exact hstring _ _
  | array items ih => exact readsBack_array ih
  | object members ih => exact readsBack_object ih

end Values

/-- The text that the printer returns is parsed as the value read back, unless the value is nested
deeper than the parser's limit. Whatever lies behind the text is left alone; a finite number needs
that no further byte of a number does. -/
theorem parse_print (format : Bool) (v : Json) {text : Bytes} (h : print format v = some (some text))
    {rest : Bytes} (hrest : Follow v rest) :
    cJSONParseWithLength (text ++ rest) =
      some (if nesting v ≤ CJSON_NESTING_LIMIT then some (reread v) else none) := by
  have htext : text = render format 0 v := by
    rw [print_eq] at h
    split at h
    · exact (Option.some.inj (Option.some.inj h)).symm
    · cases Option.some.inj h
  subst htext
  obtain ⟨c, t, hhead, hvisible, -, -, hmark⟩ := render_head format 0 v
  have hcons : render format 0 v ++ rest = c :: (t ++ rest) := by rw [hhead, List.cons_append]
  have hbom : skipUtf8Bom (render format 0 v ++ rest) = 0 := by
    refine if_neg fun hthree => hmark ?_
    rw [hcons] at hthree
    exact (List.cons_eq_cons.mp hthree.2).1
  have hread := @parseValue_render (render format 0 v ++ rest) format v
    CJSON_NESTING_LIMIT 0 0 rest rfl hrest
  rw [cJSONParseWithLength, if_neg (hcons ▸ List.cons_ne_nil _ _), hbom,
    @skip_none _ 0 _ _ hcons hvisible, hread]
  by_cases hle : nesting v ≤ CJSON_NESTING_LIMIT
  · rw [if_pos hle, if_pos hle]
  · rw [if_neg hle, if_neg hle]

/-- A formatted object with a digit behind it, and a number with a brace behind it. -/
theorem parse_print_object :
    cJSONParseWithLength (ascii "\x7b\n\t\"ips\":\t[\"10.0.0.9\", null]\n\x7d" ++ ascii "3") =
        some (some (.object [(ascii "ips", .array [.string (ascii "10.0.0.9"), .null])])) ∧
      cJSONParseWithLength (ascii "12" ++ ascii "\x7d") = some (some (.number (.ofInt 12))) := by
  have htwelve : reread (.number (.ofInt 12)) = .number (.ofInt 12) := by
    unfold reread
    exact rereadNumber_ofInt (n := 12) (by decide) (by decide)
  refine ⟨parse_print true (.object [(ascii "ips", .array [.string (ascii "10.0.0.9"), .null])])
    (by decide +kernel) nofun, ?_⟩
  have hprint : print false (.number (.ofInt 12)) = some (some (ascii "12")) := by decide +kernel
  have hend : Follow (.number (.ofInt 12)) (ascii "\x7d") := (breaks_cons rfl []).follow _
  have hparse := parse_print false (.number (.ofInt 12)) hprint hend
  have hflat : nesting (.number (.ofInt 12)) ≤ CJSON_NESTING_LIMIT := Nat.zero_le _
  rwa [if_pos hflat, htwelve] at hparse

/-! ## Values that come back as they were -/

/-- Values without a number that is not an `int` and without a NUL in a text. -/
inductive Exact : Json → Prop
  | null : Exact .null
  | bool (b : Bool) : Exact (.bool b)
  | number {n : Int} : INT_MIN ≤ n → n ≤ INT_MAX → Exact (.number (.ofInt n))
  | string {s : Bytes} : (0 : UInt8) ∉ s → Exact (.string s)
  | array {items : List Json} : (∀ v ∈ items, Exact v) → Exact (.array items)
  | object {members : List (Bytes × Json)} : (∀ m ∈ members, (0 : UInt8) ∉ m.1) →
      (∀ m ∈ members, Exact m.2) → Exact (.object members)

theorem rereadItems_eq (items : List Json) : rereadItems items = items.map reread := by
  induction items with
  | nil => rfl
  | cons v vs ih => rw [rereadItems, ih, List.map_cons]

theorem rereadMembers_eq (members : List (Bytes × Json)) :
    rereadMembers members = members.map fun m => (cString m.1, reread m.2) := by
  induction members with
  | nil => rfl
  | cons m ms ih => rw [rereadMembers, ih, List.map_cons]

theorem reread_exact {v : Json} (h : Exact v) : reread v = v := by
  induction h with
  | null => rfl
  | bool b => rfl
  | number hlow hhigh => exact rereadNumber_ofInt hlow hhigh
  | string hs => rw [reread, cString_of_nul hs]
  | @array items _ ih =>
    rw [reread, rereadItems_eq, List.map_congr_left ih, List.map_id']
  | @object members hnames _ ih =>
    have hmembers : ∀ m ∈ members, (cString m.1, reread m.2) = m := fun m hm => by
      rw [cString_of_nul (hnames m hm), ih m hm]
    rw [reread, rereadMembers_eq, List.map_congr_left hmembers, List.map_id']

end TrafficAnalyzer.Cjson
