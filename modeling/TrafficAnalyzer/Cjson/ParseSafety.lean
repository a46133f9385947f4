import TrafficAnalyzer.Cjson.Parse

/-!
# The JSON parser stays inside its buffers

`parse_string` goes over a string twice: the first loop finds the closing quote and the size of
the block, and the second one writes into the block. After a `\u` without hexadecimal digits
behind it the two loops no longer agree on where an escape begins, so the second one can take
the closing quote for the second byte of an escape and leave the string behind.

* `unescape_safe`: it writes inside the block all the same.
* `cJSONParseWithLength_safe`: no text leads to a fault.
-/

namespace TrafficAnalyzer.Cjson

open LineProtocol Printf CText

variable {content : Bytes} {inputEnd : Nat}

/-! ## Hexadecimal digits -/

/-- The `n` bytes from `i` on are hexadecimal digits. -/
def HexDigits (content : Bytes) (i n : Nat) : Prop :=
  ∀ j < n, ∃ c, content[i + j]? = some c ∧ hexValue c ≠ none

theorem hexLoop_spec {n i : Nat} (h : Nat) (hi : i + n ≤ content.length) :
    ∃ r, hexLoop content n i h = some r ∧ (r = 0 ∨ HexDigits content i n) := by
  induction n generalizing i h with
  | zero => exact ⟨h, rfl, .inr fun j hj => absurd hj (Nat.not_lt_zero j)⟩
  | succ n ih =>
    have hlt : i < content.length := by omega
    rw [hexLoop, List.getElem?_eq_getElem hlt]
    cases hc : hexValue content[i] with
    | none => exact ⟨0, by simp [hc], .inl rfl⟩
    | some d =>
      obtain ⟨r, hr, hdigits⟩ := ih (if n = 0 then h + d else (h + d) <<< 4) (i := i + 1) (by omega)
      refine ⟨r, by simpa [hc] using hr, hdigits.imp_right fun hd j hj => ?_⟩
      cases j with
      | zero => exact ⟨content[i], List.getElem?_eq_getElem hlt, by simp [hc]⟩
      | succ j =>
        obtain ⟨c, hget, hval⟩ := hd j (Nat.lt_of_succ_lt_succ hj)
        exact ⟨c, by rwa [Nat.add_succ, ← Nat.succ_add], hval⟩

theorem hexValue_ne {c : UInt8} (h : hexValue c ≠ none) : c ≠ 34 ∧ c ≠ 92 := by
  constructor <;> rintro rfl <;> exact h (by decide)

theorem length_utf8Tail (n codepoint : Nat) (bytes : Bytes) :
    (utf8Tail n codepoint bytes).2.length = n + bytes.length := by
  induction n generalizing codepoint bytes with
  | zero => rw [utf8Tail, Nat.zero_add]
  | succ n ih => rw [utf8Tail, ih, List.length_cons, Nat.succ_add, Nat.add_succ]

theorem length_utf8Bytes (n mark codepoint : Nat) :
    (utf8Bytes n mark codepoint).length = n - 1 + 1 := by
  rw [utf8Bytes, List.length_cons, length_utf8Tail, List.length_nil, Nat.add_zero]

theorem length_encodeUtf8 {codepoint : Nat} {bytes : Bytes}
    (h : encodeUtf8 codepoint = some bytes) :
    bytes.length ≤ 4 ∧ (codepoint = 0 → bytes.length = 1) := by
  unfold encodeUtf8 at h
  split at h
  · cases h
    exact ⟨Nat.one_le_ofNat, fun _ => rfl⟩
  · next hbig =>
    refine ⟨?_, fun h0 => absurd (h0 ▸ (by decide : 0 < 0x80)) hbig⟩
    split at h
    · cases h
      rw [length_utf8Bytes]
      decide
    · split at h
      · cases h
        rw [length_utf8Bytes]
        decide
      · obtain ⟨-, h⟩ := Option.ite_none_right_eq_some.mp h
        cases h
        rw [length_utf8Bytes]

/-- What `utf16_literal_to_utf8` can answer: a single code has at most four bytes, and one byte
where it is not hexadecimal; a pair of surrogates has at most four. -/
inductive Literal (content : Bytes) (input inputEnd : Nat) : Option (Bytes × Nat) → Prop
  | refused : Literal content input inputEnd none
  | single {bytes : Bytes} : input + 6 ≤ inputEnd → bytes.length ≤ 4 →
      (bytes.length = 1 ∨ HexDigits content (input + 2) 4) →
      Literal content input inputEnd (some (bytes, 6))
  | pair {bytes : Bytes} : input + 12 ≤ inputEnd → bytes.length ≤ 4 →
      HexDigits content (input + 2) 4 → content[input + 6]? = some 92 →
      content[input + 7]? = some 117 → HexDigits content (input + 8) 4 →
      Literal content input inputEnd (some (bytes, 12))

theorem utf16LiteralToUtf8_spec (input : Nat) (hend : inputEnd ≤ content.length) :
    ∃ r, utf16LiteralToUtf8 content input inputEnd = some r ∧ Literal content input inputEnd r := by
  unfold utf16LiteralToUtf8
  split
  · exact ⟨none, rfl, .refused⟩
  next hsix =>
  have hroom : input + 2 + 4 ≤ content.length := by omega
  obtain ⟨first, hfirst, hdigits⟩ := hexLoop_spec 0 hroom
  rw [parseHex4, hfirst, Option.bind_eq_bind, Option.bind_some]
  split
  · exact ⟨none, rfl, .refused⟩
  split
  · next hsurrogate =>
    dsimp only
    split
    · exact ⟨none, rfl, .refused⟩
    next htwelve =>
    have h6 : input + 6 < content.length := by omega
    have h7 : input + 6 + 1 < content.length := by omega
    rw [List.getElem?_eq_getElem h6, List.getElem?_eq_getElem h7, Option.bind_eq_bind,
      Option.bind_some, Option.bind_some]
    split
    · exact ⟨none, rfl, .refused⟩
    next hescape =>
    have hroom' : input + 6 + 2 + 4 ≤ content.length := by omega
    obtain ⟨second, hsecond, hdigits'⟩ := hexLoop_spec 0 hroom'
    rw [parseHex4, hsecond, Option.bind_some]
    split
    · exact ⟨none, rfl, .refused⟩
    next hlow =>
    refine ⟨_, rfl, ?_⟩
    cases hbytes : encodeUtf8 (0x10000 + ((first &&& 0x3FF) <<< 10 ||| second &&& 0x3FF)) with
    | none => exact .refused
    | some bytes =>
      rw [not_or, not_not, not_not] at hescape
      refine .pair (by omega) (length_encodeUtf8 hbytes).1 (hdigits.resolve_left (by omega)) ?_ ?_
        (hdigits'.resolve_left (by omega))
      · rw [List.getElem?_eq_getElem h6, hescape.1]
      · rw [List.getElem?_eq_getElem h7, hescape.2]
  · refine ⟨_, rfl, ?_⟩
    cases hbytes : encodeUtf8 first with
    | none => exact .refused
    | some bytes =>
      obtain ⟨hlen, hzero⟩ := length_encodeUtf8 hbytes
      exact .single (by omega) hlen (hdigits.imp_left hzero)

/-! ## The tokens of the first loop -/

/-- `input` is where the first loop stands at one time, with so many tokens still to come before
the closing quote at `inputEnd`. -/
inductive Boundary (content : Bytes) (inputEnd : Nat) : Nat → Nat → Prop
  | closing : content[inputEnd]? = some 34 → Boundary content inputEnd inputEnd 0
  | escape {input tokens : Nat} : content[input]? = some 92 →
      Boundary content inputEnd (input + 2) tokens → Boundary content inputEnd input (tokens + 1)
  | plain {input tokens : Nat} {c : UInt8} : content[input]? = some c → c ≠ 34 → c ≠ 92 →
      Boundary content inputEnd (input + 1) tokens → Boundary content inputEnd input (tokens + 1)

theorem closingQuote_plain {c : UInt8} (hquote : c ≠ 34) (hslash : c ≠ 92) (s : Bytes) :
    closingQuote (c :: s) = (closingQuote s).map fun r => (r.1 + 1, r.2) := by
  rw [closingQuote]
  · exact hquote
  · exact fun h _ => hslash h
  · exact fun _ _ h _ => hslash h

theorem getElem?_of_drop {p : Nat} {c : UInt8} {s : Bytes} (h : content.drop p = c :: s) :
    content[p]? = some c ∧ content.drop (p + 1) = s := by
  constructor
  · rw [← List.head?_drop, h, List.head?_cons]
  · rw [← List.tail_drop, h, List.tail_cons]

theorem boundary_of_closingQuote {p n skipped : Nat}
    (h : closingQuote (content.drop p) = some (n, skipped)) :
    skipped ≤ n ∧ Boundary content (p + n) p (n - skipped) := by
  generalize hs : content.drop p = s at h
  induction s using closingQuote.induct generalizing p n skipped with
  | case1 => cases h
  | case2 s =>
    cases h
    exact ⟨le_rfl, .closing (getElem?_of_drop hs).1⟩
  | case3 => cases h
  | case4 c s ih =>
    obtain ⟨⟨n, k⟩, hrec, heq⟩ := Option.map_eq_some_iff.mp h
    obtain ⟨rfl, rfl⟩ := Prod.mk.inj heq
    obtain ⟨hslash, hs⟩ := getElem?_of_drop hs
    obtain ⟨hle, hb⟩ := ih (getElem?_of_drop hs).2 hrec
    refine ⟨by omega, ?_⟩
    rw [show n + 2 - (k + 1) = n - k + 1 by omega]
    rw [show p + 1 + 1 + n = p + (n + 2) by omega] at hb
    exact .escape hslash hb
  | case5 c s hquote hslash hslash' ih =>
    have hslash : c ≠ 92 := by
      intro hc
      cases s with
      | nil => exact hslash hc rfl
      | cons d s => exact hslash' d s hc rfl
    rw [closingQuote_plain hquote hslash] at h
    obtain ⟨⟨n, k⟩, hrec, heq⟩ := Option.map_eq_some_iff.mp h
    obtain ⟨rfl, rfl⟩ := Prod.mk.inj heq
    obtain ⟨hc, hs⟩ := getElem?_of_drop hs
    obtain ⟨hle, hb⟩ := ih hs hrec
    refine ⟨by omega, ?_⟩
    rw [show n + 1 - k = n - k + 1 by omega]
    rw [show p + 1 + n = p + (n + 1) by omega] at hb
    exact .plain hc hquote hslash hb

namespace Boundary

theorem le {input tokens : Nat} (h : Boundary content inputEnd input tokens) :
    input ≤ inputEnd := by
  induction h with
  | closing _ => exact le_rfl
  | escape _ _ ih => omega
  | plain _ _ _ _ ih => omega

theorem quote {input tokens : Nat} (h : Boundary content inputEnd input tokens) :
    content[inputEnd]? = some 34 := by
  induction h with
  | closing h => exact h
  | escape _ _ ih => exact ih
  | plain _ _ _ _ ih => exact ih

/-- `j` bytes further the first loop has a boundary again, there or one byte behind. -/
theorem advance {input tokens : Nat} (h : Boundary content inputEnd input tokens) {j : Nat}
    (hj : input + j ≤ inputEnd) :
    (∃ t ≤ tokens, Boundary content inputEnd (input + j) t) ∨
      ∃ t < tokens, Boundary content inputEnd (input + j + 1) t := by
  induction j with
  | zero => exact .inl ⟨tokens, le_rfl, h⟩
  | succ j ih =>
    rcases ih (by omega) with ⟨t, ht, hb⟩ | ⟨t, ht, hb⟩
    · cases hb with
      | closing _ => omega
      | @escape _ t _ hb => exact .inr ⟨t, by omega, hb⟩
      | @plain _ t _ _ _ _ hb => exact .inl ⟨t, by omega, hb⟩
    · exact .inl ⟨t, ht.le, hb⟩

/-- Hexadecimal digits are tokens of their own. -/
theorem hexDigits {input tokens n : Nat} (h : Boundary content inputEnd input tokens)
    (hdigits : HexDigits content input n) :
    ∃ t, tokens = t + n ∧ Boundary content inputEnd (input + n) t := by
  induction n with
  | zero => exact ⟨tokens, rfl, h⟩
  | succ n ih =>
    obtain ⟨t, ht, hb⟩ := ih fun j hj => hdigits j (Nat.lt_succ_of_lt hj)
    obtain ⟨c, hc, hval⟩ := hdigits n (Nat.lt_succ_self n)
    obtain ⟨hquote, hslash⟩ := hexValue_ne hval
    cases hb with
    | closing hq => exact absurd (Option.some.inj (hc.symm.trans hq)) hquote
    | escape hs _ => exact absurd (Option.some.inj (hc.symm.trans hs)) hslash
    | @plain _ t _ _ _ _ hb => exact ⟨t, by omega, hb⟩

end Boundary

/-! ## The second loop -/

/-- The second loop may stand at `input` with `room` bytes left in the block: behind the string,
at a boundary of the first loop, or in the middle of an escape of the first loop. There is a byte
left for the output of every token to come, and for the terminating NUL. -/
inductive Ready (content : Bytes) (inputEnd input room : Nat) : Prop
  | done : inputEnd ≤ input → 0 < room → Ready content inputEnd input room
  | boundary {tokens : Nat} : Boundary content inputEnd input tokens → tokens < room →
      Ready content inputEnd input room
  | middle {tokens : Nat} : Boundary content inputEnd (input + 1) tokens → tokens + 1 < room →
      Ready content inputEnd input room

namespace Ready

variable {input room : Nat}

theorem pos (h : Ready content inputEnd input room) : 0 < room := by
  cases h with
  | done _ h => exact h
  | boundary _ h => omega
  | middle _ h => omega

/-- A byte that is copied. -/
theorem copy (h : Ready content inputEnd input room) (hlt : input < inputEnd) {c : UInt8}
    (hc : content[input]? = some c) (hslash : c ≠ 92) :
    0 < room ∧ Ready content inputEnd (input + 1) (room - 1) := by
  refine ⟨h.pos, ?_⟩
  cases h with
  | done hle _ => omega
  | boundary hb hroom =>
    cases hb with
    | closing _ => omega
    | escape hs _ => exact absurd (Option.some.inj (hc.symm.trans hs)) hslash
    | plain _ _ _ hb => exact .boundary hb (by omega)
  | middle hb hroom => exact .boundary hb (by omega)

/-- A backslash and the byte behind it. -/
theorem escape (h : Ready content inputEnd input room) (hlt : input < inputEnd)
    (hc : content[input]? = some 92) :
    1 ≤ room ∧ Ready content inputEnd (input + 2) (room - 1) := by
  refine ⟨h.pos, ?_⟩
  cases h with
  | done hle _ => omega
  | boundary hb hroom =>
    cases hb with
    | closing _ => omega
    | escape _ hb => exact .boundary hb (by omega)
    | plain hd _ hslash _ => exact absurd (Option.some.inj (hd.symm.trans hc)) hslash
  | middle hb hroom =>
    cases hb with
    | closing _ => exact .done (by omega) (by omega)
    | escape _ hb => exact .middle hb (by omega)
    | plain _ _ _ hb => exact .boundary hb (by omega)

/-- Behind a backslash and a `u`. -/
theorem behind_u (h : Ready content inputEnd input room) (hlt : input + 2 ≤ inputEnd)
    (hc : content[input]? = some 92) (hu : content[input + 1]? = some 117) :
    ∃ tokens, Boundary content inputEnd (input + 2) tokens ∧ tokens + 2 ≤ room := by
  cases h with
  | done hle _ => omega
  | boundary hb hroom =>
    cases hb with
    | closing _ => omega
    | @escape _ t _ hb => exact ⟨t, hb, by omega⟩
    | plain hd _ hslash _ => exact absurd (Option.some.inj (hd.symm.trans hc)) hslash
  | middle hb hroom =>
    cases hb with
    | closing _ => omega
    | escape hd _ => exact absurd (Option.some.inj (hu.symm.trans hd)) (by decide)
    | @plain _ t _ _ _ _ hb => exact ⟨t, hb, by omega⟩

/-- What `utf16_literal_to_utf8` writes. -/
theorem literal (h : Ready content inputEnd input room) (hc : content[input]? = some 92)
    (hu : content[input + 1]? = some 117) {bytes : Bytes} {n : Nat}
    (hlit : Literal content input inputEnd (some (bytes, n))) :
    bytes.length ≤ room ∧ 0 < n ∧
      Ready content inputEnd (input + n) (room - bytes.length) := by
  cases hlit with
  | single hend hlen hdigits =>
    obtain ⟨tokens, hb, hroom⟩ := h.behind_u (by omega) hc hu
    rcases hdigits with hone | hdigits
    · rcases hb.advance (j := 4) (by omega) with ⟨t, ht, hb⟩ | ⟨t, ht, hb⟩
      · exact ⟨by omega, by decide, .boundary hb (by omega)⟩
      · exact ⟨by omega, by decide, .middle hb (by omega)⟩
    · obtain ⟨t, rfl, hb'⟩ := hb.hexDigits hdigits
      exact ⟨by omega, by decide, .boundary hb' (by omega)⟩
  | pair hend hlen hdigits hslash hu' hdigits' =>
    obtain ⟨tokens, hb, hroom⟩ := h.behind_u (by omega) hc hu
    obtain ⟨t, rfl, hfirst⟩ := hb.hexDigits hdigits
    have hnext : Ready content inputEnd (input + 6) (room - 4) := .boundary hfirst (by omega)
    obtain ⟨_, hb', hroom'⟩ := hnext.behind_u (by omega) hslash hu'
    obtain ⟨t', rfl, hsecond⟩ := hb'.hexDigits hdigits'
    exact ⟨by omega, by decide, .boundary hsecond (by omega)⟩

end Ready

/-- The second loop neither reads nor writes outside, and comes to an end. -/
theorem unescape_safe (hquote : content[inputEnd]? = some 34) {fuel input room : Nat}
    (h : Ready content inputEnd input room) (hfuel : inputEnd - input < fuel) :
    ∃ output, unescape content inputEnd fuel input room = some output := by
  induction fuel generalizing input room with
  | zero => exact absurd hfuel (Nat.not_lt_zero _)
  | succ fuel ih =>
    have hwrite : ∀ (bytes : Bytes) (n : Nat), input < inputEnd → bytes.length ≤ room ∧ 0 < n ∧
        Ready content inputEnd (input + n) (room - bytes.length) →
        ∃ output, (if bytes.length ≤ room then
          (unescape content inputEnd fuel (input + n) (room - bytes.length)).map
            fun output => output.map fun s => bytes ++ s
          else none) = some output := by
      intro bytes n hlt ⟨hlen, hn, hready⟩
      obtain ⟨output, houtput⟩ := ih hready (by omega)
      rw [if_pos hlen, houtput]
      exact ⟨_, rfl⟩
    unfold unescape
    dsimp only
    split
    · rw [if_pos h.pos]
      exact ⟨_, rfl⟩
    next hlt =>
    rw [Nat.not_le] at hlt
    have hend : inputEnd < content.length := (List.getElem?_eq_some_iff.mp hquote).1
    have hin : input < content.length := hlt.trans hend
    have hin' : input + 1 < content.length := by omega
    rw [List.getElem?_eq_getElem hin, Option.bind_eq_bind, Option.bind_some]
    split
    · next hslash =>
      exact hwrite [content[input]] 1 hlt
        ⟨h.pos, Nat.one_pos, (h.copy hlt (List.getElem?_eq_getElem hin) hslash).2⟩
    next hslash =>
    have hc : content[input]? = some 92 := by
      rw [List.getElem?_eq_getElem hin, not_not.mp hslash]
    rw [List.getElem?_eq_getElem hin', Option.bind_some]
    split
    · next hu =>
      obtain ⟨r, hr, hlit⟩ := utf16LiteralToUtf8_spec input hend.le
      rw [hr, Option.bind_eq_bind, Option.bind_some]
      cases r with
      | none => exact ⟨none, rfl⟩
      | some r =>
        have hu' : content[input + 1]? = some 117 := by rw [List.getElem?_eq_getElem hin', hu]
        exact hwrite r.1 r.2 hlt (h.literal hc hu' hlit)
    · cases unescaped content[input + 1] with
      | none => exact ⟨none, rfl⟩
      | some b => exact hwrite [b] 2 hlt ⟨h.pos, Nat.two_pos, (h.escape hlt hc).2⟩

/-! ## Values -/

/-- No fault, and the new offset lies between `low` and `high`. -/
def Within {α : Type} (r : Parsed α) (low high : Nat) : Prop :=
  r ≠ .fault ∧ ∀ a p, r = .ok a p → low < p ∧ p ≤ high

namespace Within

variable {α β : Type} {r : Parsed α} {low high : Nat}

theorem fail : Within (.fail : Parsed α) low high := ⟨nofun, nofun⟩

theorem ok {a : α} {p : Nat} (hlow : low < p) (hhigh : p ≤ high) : Within (.ok a p) low high := by
  refine ⟨nofun, fun b q h => ?_⟩
  obtain ⟨rfl, rfl⟩ := Parsed.ok.inj h
  exact ⟨hlow, hhigh⟩

theorem bind {low' high' : Nat} {k : α → Nat → Parsed β} (h : Within r low high)
    (hk : ∀ a p, low < p → p ≤ high → Within (k a p) low' high') :
    Within (r.bind k) low' high' := by
  cases r with
  | fault => exact absurd rfl h.1
  | fail => exact .fail
  | ok a p => exact hk a p (h.2 a p rfl).1 (h.2 a p rfl).2

end Within

theorem bufferSkipWhitespace_le {offset : Nat} (h : offset ≤ content.length) :
    offset ≤ bufferSkipWhitespace content offset ∧
      bufferSkipWhitespace content offset ≤ content.length := by
  unfold bufferSkipWhitespace
  split
  · exact ⟨le_rfl, h⟩
  · have hle := (List.takeWhile_prefix (p := (· ≤ 32)) (l := content.drop offset)).length_le
    rw [List.length_drop] at hle
    dsimp only
    split <;> omega

theorem bufferSkipWhitespace_lt {offset : Nat} (h : offset < content.length) :
    bufferSkipWhitespace content offset < content.length := by
  have hle := (List.takeWhile_prefix (p := (· ≤ 32)) (l := content.drop offset)).length_le
  rw [List.length_drop] at hle
  unfold bufferSkipWhitespace
  rw [if_neg (Nat.not_le.mpr h)]
  dsimp only
  split <;> omega

theorem lt_of_getElem? {c : UInt8} {p : Nat} (h : content[p]? = some c) : p < content.length :=
  (List.getElem?_eq_some_iff.mp h).1

/-- `parse_string` at a byte of the buffer. -/
theorem parseString_within {offset : Nat} (h : offset < content.length) :
    Within (parseString content offset) offset content.length := by
  unfold parseString
  rw [List.getElem?_eq_getElem h]
  dsimp only
  split
  · exact .fail
  cases hclose : closingQuote (content.drop (offset + 1)) with
  | none => exact .fail
  | some r =>
    obtain ⟨n, skipped⟩ := r
    obtain ⟨hle, hb⟩ := boundary_of_closingQuote hclose
    have hend := lt_of_getElem? hb.quote
    have hready : Ready content (offset + 1 + n) (offset + 1)
        (offset + 1 + n - offset - skipped + 1) := .boundary hb (by omega)
    obtain ⟨output, houtput⟩ := unescape_safe hb.quote hready
      (show offset + 1 + n - (offset + 1) < n + 1 by omega)
    dsimp only
    rw [houtput]
    cases output with
    | none => exact .fail
    | some output => exact .ok (by omega) (by omega)

theorem parseNumber_within {offset : Nat} (h : offset ≤ content.length) :
    Within (parseNumber content offset) offset content.length := by
  have hle := (List.takeWhile_prefix (p := numberByte) (l := content.drop offset)).length_le
  rw [List.length_drop] at hle
  unfold parseNumber
  dsimp only
  split
  · exact .fail
  · next x rest hx =>
    have hlt := length_strtod_lt hx
    exact .ok (by omega) (by omega)

/-- A function that parses a value. -/
def ParsesValue (content : Bytes) (value : Nat → Parsed Json) : Prop :=
  ∀ offset ≤ content.length, Within (value offset) offset content.length

section Values

variable {value : Nat → Parsed Json}

theorem parseElements_within (hvalue : ParsesValue content value) {fuel offset : Nat}
    (h : offset < content.length) (hfuel : content.length - offset ≤ fuel) :
    Within (parseElements content value fuel offset) offset (content.length - 1) := by
  induction fuel generalizing offset with
  | zero => omega
  | succ fuel ih =>
    obtain ⟨hskip, hskip'⟩ := bufferSkipWhitespace_le (show offset + 1 ≤ content.length from h)
    refine (hvalue _ hskip').bind fun item p hlow hhigh => ?_
    obtain ⟨hp, -⟩ := bufferSkipWhitespace_le hhigh
    dsimp only
    split
    · next hcomma =>
      refine (ih (lt_of_getElem? hcomma) (by omega)).bind fun items q hq hq' => ?_
      exact .ok (by omega) hq'
    · split
      · next hclose =>
        have := lt_of_getElem? hclose
        exact .ok (by omega) (by omega)
      · exact .fail

theorem parseArray_within (hvalue : ParsesValue content value) {offset : Nat}
    (h : offset < content.length) :
    Within (parseArray content value offset) offset content.length := by
  obtain ⟨hskip, -⟩ := bufferSkipWhitespace_le (show offset + 1 ≤ content.length from h)
  unfold parseArray
  rw [List.getElem?_eq_getElem h]
  dsimp only
  split
  · exact .fail
  split
  · next hclose => exact .ok (by omega) (lt_of_getElem? hclose)
  split
  · exact .fail
  · refine (parseElements_within hvalue (by omega) (by omega)).bind fun items p hlow hhigh => ?_
    exact .ok (by omega) (by omega)

theorem parseMembers_within (hvalue : ParsesValue content value) {fuel offset : Nat}
    (h : offset < content.length) (hfuel : content.length - offset ≤ fuel) :
    Within (parseMembers content value fuel offset) offset (content.length - 1) := by
  induction fuel generalizing offset with
  | zero => omega
  | succ fuel ih =>
    unfold parseMembers
    split
    · exact .fail
    next hnext =>
    rw [Nat.not_le] at hnext
    obtain ⟨hskip, -⟩ := bufferSkipWhitespace_le hnext.le
    refine (parseString_within (bufferSkipWhitespace_lt hnext)).bind fun name p hlow hhigh => ?_
    obtain ⟨hp, -⟩ := bufferSkipWhitespace_le hhigh
    dsimp only
    split
    · exact .fail
    next hcolon =>
    obtain ⟨hskip', hskip''⟩ := bufferSkipWhitespace_le (lt_of_getElem? (not_not.mp hcolon))
    refine (hvalue _ hskip'').bind fun item q hq hq' => ?_
    obtain ⟨hq'', -⟩ := bufferSkipWhitespace_le hq'
    split
    · next hcomma =>
      refine (ih (lt_of_getElem? hcomma) (by omega)).bind fun members r hr hr' => ?_
      exact .ok (by omega) hr'
    · split
      · next hclose =>
        have := lt_of_getElem? hclose
        exact .ok (by omega) (by omega)
      · exact .fail

theorem parseObject_within (hvalue : ParsesValue content value) {offset : Nat}
    (h : offset < content.length) :
    Within (parseObject content value offset) offset content.length := by
  obtain ⟨hskip, -⟩ := bufferSkipWhitespace_le (show offset + 1 ≤ content.length from h)
  unfold parseObject
  split
  · exact .fail
  dsimp only
  split
  · next hclose => exact .ok (by omega) (lt_of_getElem? hclose)
  split
  · exact .fail
  · refine (parseMembers_within hvalue (by omega) (by omega)).bind fun members p hlow hhigh => ?_
    exact .ok (by omega) (by omega)

end Values

theorem startsWith_le {offset : Nat} {word : Bytes} (hne : 0 < word.length)
    (h : startsWith content offset word = true) : offset + word.length ≤ content.length := by
  have hle := (List.isPrefixOf_iff_prefix.mp h).length_le
  rw [List.length_drop] at hle
  omega

theorem parseValueWith_within {array object : Nat → Parsed Json} {offset : Nat}
    (harray : offset < content.length → Within (array offset) offset content.length)
    (hobject : offset < content.length → Within (object offset) offset content.length) :
    Within (parseValueWith content array object offset) offset content.length := by
  unfold parseValueWith
  split
  · next hword => exact .ok (Nat.lt_add_of_pos_right (by decide)) (startsWith_le (by decide) hword)
  split
  · next hword => exact .ok (Nat.lt_add_of_pos_right (by decide)) (startsWith_le (by decide) hword)
  split
  · next hword => exact .ok (Nat.lt_add_of_pos_right (by decide)) (startsWith_le (by decide) hword)
  split
  · exact .fail
  next c hc =>
  have hlt := lt_of_getElem? hc
  split
  · exact (parseString_within hlt).bind fun s p hlow hhigh => .ok hlow hhigh
  split
  · exact parseNumber_within hlt.le
  split
  · exact harray hlt
  split
  · exact hobject hlt
  · exact .fail

theorem parseValue_within (limit : Nat) : ParsesValue content (parseValue content limit) := by
  induction limit with
  | zero => exact fun _ _ => parseValueWith_within (fun _ => .fail) (fun _ => .fail)
  | succ limit ih =>
    intro offset _
    exact parseValueWith_within (parseArray_within ih) (parseObject_within ih)

/-- No text leads to an access outside a buffer or to a loop without end. -/
theorem cJSONParseWithLength_safe (value : Bytes) :
    ∃ item, cJSONParseWithLength value = some item := by
  unfold cJSONParseWithLength
  split
  · exact ⟨none, rfl⟩
  · have hbom : skipUtf8Bom value ≤ value.length := by
      unfold skipUtf8Bom
      split <;> omega
    have hwithin := parseValue_within CJSON_NESTING_LIMIT _ (bufferSkipWhitespace_le hbom).2
    split
    · next hfault => exact absurd hfault hwithin.1
    · exact ⟨none, rfl⟩
    · exact ⟨_, rfl⟩

end TrafficAnalyzer.Cjson
