import TrafficAnalyzer.Lib.Bytes

/-!
# The tokens of the line protocol

A backslash escapes a comma, an equals sign or a space; before any other byte it stands for
itself. An unescaped comma, equals sign or space ends a token, and the newline ends the line.

* `lex_unlex`: a line of tokens is cut into these tokens.
* `unlex_of_lex`, `tokens_of_lex`: what `lex` has cut, put together again.
* `lex_backslash`: a backslash at the end of a token swallows the separator.
* `isNumber_token`: the texts of numbers are tokens.
-/

namespace LineProtocol

def comma : UInt8 := 44
def equals : UInt8 := 61
def space : UInt8 := 32
def backslash : UInt8 := 92
def newline : UInt8 := 10

/-- The bytes that end a token unless they are escaped. -/
def isSpecial (c : UInt8) : Bool := c = comma ∨ c = equals ∨ c = space

/-! ## Tokens -/

def escape : Bytes → Bytes
  | [] => []
  | c :: cs => if isSpecial c then backslash :: c :: escape cs else c :: escape cs

/-- A token that can stand before a separator: an escaping backslash cannot end it. -/
def Token (v : Bytes) : Prop := newline ∉ v ∧ v.getLast? ≠ some backslash

/-- A line cut into its first token and the others, each with the separator before it.
`tok` is what has been read of the current token. -/
def lex (tok : Bytes) : Bytes → Option (Bytes × List (UInt8 × Bytes))
  | [] => none
  | [c] => if c = newline then some (tok, []) else none
  | c :: d :: cs =>
    if c = newline then none
    else if isSpecial c then do
      let (t, toks) ← lex [] (d :: cs)
      some (tok, (c, t) :: toks)
    else if c = backslash ∧ isSpecial d then lex (tok ++ [d]) cs
    else lex (tok ++ [c]) (d :: cs)

/-- The text of a line. -/
def unlex (tok : Bytes) (toks : List (UInt8 × Bytes)) : Bytes :=
  escape tok ++ toks.flatMap (fun t => t.1 :: escape t.2) ++ [newline]

@[simp] theorem escape_append (a b : Bytes) : escape (a ++ b) = escape a ++ escape b := by
  induction a with
  | nil => rfl
  | cons c a ih =>
    simp only [List.cons_append, escape]
    split <;> simp [ih]

theorem escape_of_plain {v : Bytes} (h : ∀ c ∈ v, isSpecial c = false) : escape v = v := by
  induction v with
  | nil => rfl
  | cons c v ih =>
    rw [escape, h c (by simp), ih fun d hd => h d (by simp [hd])]
    rfl

theorem plain_of_all {v : Bytes} (h : v.all (fun c => !isSpecial c) = true) :
    ∀ c ∈ v, isSpecial c = false :=
  fun c hc => by simpa using List.all_eq_true.mp h c hc

theorem mem_escape {v : Bytes} {c : UInt8} : c ∈ escape v → c ∈ v ∨ c = backslash := by
  induction v with
  | nil => exact fun h => absurd h List.not_mem_nil
  | cons d v ih =>
    rw [escape]
    split
    · intro h
      rcases List.mem_cons.mp h with rfl | h
      · exact .inr rfl
      · rcases List.mem_cons.mp h with rfl | h
        · simp
        · exact (ih h).imp_left (List.mem_cons_of_mem _)
    · intro h
      rcases List.mem_cons.mp h with rfl | h
      · simp
      · exact (ih h).imp_left (List.mem_cons_of_mem _)

theorem mem_escape_of_mem {v : Bytes} {c : UInt8} (h : c ∈ v) : c ∈ escape v := by
  induction v with
  | nil => exact h
  | cons d v ih =>
    rw [escape]
    rcases List.mem_cons.mp h with rfl | h
    · split <;> simp
    · split <;> simp [ih h]

/-- An escaped text does not begin with a separator. -/
theorem escape_head {v : Bytes} {c : UInt8} {cs : Bytes} (h : escape v = c :: cs) :
    isSpecial c = false := by
  cases v with
  | nil => cases h
  | cons d v =>
    rw [escape] at h
    split at h
    · obtain ⟨rfl, _⟩ := List.cons.inj h
      rfl
    · next hd =>
      obtain ⟨rfl, _⟩ := List.cons.inj h
      simpa using hd

/-! ## Reading tokens back -/

theorem special_ne_newline {c : UInt8} (h : isSpecial c = true) : c ≠ newline := by
  rintro rfl
  exact absurd h (by decide)

theorem Token.tail {c : UInt8} {v : Bytes} (h : Token (c :: v)) : Token v := by
  refine ⟨fun hn => h.1 (List.mem_cons_of_mem c hn), fun hb => ?_⟩
  cases v with
  | nil => cases hb
  | cons d v => exact h.2 (by rwa [List.getLast?_cons_cons])

/-- The step over one escaped byte. -/
theorem lex_escape_cons {tok rest : Bytes} {c d : UInt8} {v : Bytes} (hc : c ≠ newline)
    (hd : (escape v ++ rest).head? = some d) (hb : c = backslash → isSpecial d = false) :
    lex tok (escape (c :: v) ++ rest) = lex (tok ++ [c]) (escape v ++ rest) := by
  obtain ⟨ds, hds⟩ := List.head?_eq_some_iff.mp hd
  rw [escape]
  split
  · next hs =>
    rw [List.cons_append, List.cons_append, lex, if_neg (by decide), if_neg (by decide),
      if_pos ⟨rfl, hs⟩]
  · next hs =>
    rw [List.cons_append, hds, lex, if_neg hc, if_neg hs, if_neg]
    rintro ⟨rfl, hd⟩
    rw [hb rfl] at hd
    cases hd

/-- A token is read up to the separator that follows it. -/
theorem lex_escape {v : Bytes} (hv : Token v) {c : UInt8} (hc : isSpecial c = true) {d : UInt8}
    {ds : Bytes} (tok : Bytes) :
    lex tok (escape v ++ c :: d :: ds) =
      (lex [] (d :: ds)).bind fun r => some (tok ++ v, (c, r.1) :: r.2) := by
  induction v generalizing tok with
  | nil =>
    rw [escape, List.nil_append, lex, if_neg (special_ne_newline hc), if_pos hc, List.append_nil]
    rfl
  | cons b v ih =>
    have hb : b ≠ newline := fun h => hv.1 (by simp [h])
    have hnext : ∃ e, (escape v ++ c :: d :: ds).head? = some e ∧
        (b = backslash → isSpecial e = false) := by
      cases hv' : escape v with
      | nil =>
        refine ⟨c, rfl, fun hbs => ?_⟩
        -- a backslash cannot end the token
        cases v with
        | nil => exact absurd (by rw [hbs]; rfl) hv.2
        | cons a v =>
          rw [escape] at hv'
          split at hv' <;> cases hv'
      | cons e es => exact ⟨e, rfl, fun _ => escape_head hv'⟩
    obtain ⟨e, he, hbe⟩ := hnext
    rw [lex_escape_cons hb he hbe, ih hv.tail (tok ++ [b]), List.append_assoc]
    rfl

/-- The last token is read up to the end of the line. -/
theorem lex_escape_last {v : Bytes} (hv : newline ∉ v) (tok : Bytes) :
    lex tok (escape v ++ [newline]) = some (tok ++ v, []) := by
  induction v generalizing tok with
  | nil =>
    rw [escape, List.nil_append, lex, if_pos rfl, List.append_nil]
  | cons b v ih =>
    have hb : b ≠ newline := fun h => hv (by simp [h])
    have hnext : ∃ e, (escape v ++ [newline]).head? = some e ∧ isSpecial e = false := by
      cases hv' : escape v with
      | nil => exact ⟨newline, rfl, by decide⟩
      | cons e es => exact ⟨e, rfl, escape_head hv'⟩
    obtain ⟨e, he, hbe⟩ := hnext
    rw [lex_escape_cons hb he fun _ => hbe, ih (fun h => hv (by simp [h])), List.append_assoc]
    rfl

theorem unlex_ne_nil (t : Bytes) (toks : List (UInt8 × Bytes)) : unlex t toks ≠ [] := by
  simp [unlex]

theorem unlex_cons (t u : Bytes) (c : UInt8) (toks : List (UInt8 × Bytes)) :
    unlex t ((c, u) :: toks) = escape t ++ c :: unlex u toks := by
  simp [unlex, List.append_assoc]

/-- The first token is read, and what follows its separator is a line again. -/
theorem lex_unlex_cons {tok t u : Bytes} {c : UInt8} {toks : List (UInt8 × Bytes)}
    (ht : Token t) (hc : isSpecial c = true) :
    lex tok (unlex t ((c, u) :: toks)) =
      (lex [] (unlex u toks)).bind fun r => some (tok ++ t, (c, r.1) :: r.2) := by
  obtain ⟨d, ds, hd⟩ := List.exists_cons_of_ne_nil (unlex_ne_nil u toks)
  rw [unlex_cons, hd, lex_escape ht hc]

/-- A line of tokens is cut into these tokens. -/
theorem lex_unlex {t : Bytes} {toks : List (UInt8 × Bytes)}
    (hsep : ∀ x ∈ toks, isSpecial x.1 = true)
    (htok : ∀ v ∈ t :: toks.map (·.2), Token v) : lex [] (unlex t toks) = some (t, toks) := by
  induction toks generalizing t with
  | nil =>
    rw [unlex, List.flatMap_nil, List.append_nil, lex_escape_last (htok t (by simp)).1]
    rfl
  | cons x toks ih =>
    obtain ⟨c, u⟩ := x
    rw [lex_unlex_cons (htok t (by simp)) (hsep (c, u) (by simp)),
      ih (fun y hy => hsep y (List.mem_cons_of_mem _ hy)) fun v hv =>
        htok v (List.mem_cons_of_mem _ hv)]
    rfl

theorem escape_snoc_special (v : Bytes) {c : UInt8} (hc : isSpecial c = true) :
    escape (v ++ [c]) = escape v ++ [backslash, c] := by
  rw [escape_append, escape, if_pos hc]
  rfl

theorem escape_snoc_plain (v : Bytes) {c : UInt8} (hc : ¬ isSpecial c = true) :
    escape (v ++ [c]) = escape v ++ [c] := by
  rw [escape_append, escape, if_neg hc]
  rfl

/-- What `lex` has cut, put together again. -/
theorem unlex_of_lex {tok s t : Bytes} {toks : List (UInt8 × Bytes)}
    (h : lex tok s = some (t, toks)) : unlex t toks = escape tok ++ s := by
  induction tok, s using lex.induct generalizing t toks with
  | case1 tok => cases h
  | case2 tok =>
    cases h
    simp [unlex]
  | case3 tok c hc => simp [lex, hc] at h
  | case4 tok d cs => simp [lex] at h
  | case5 tok c d cs hn hc ih =>
    rw [lex, if_neg hn, if_pos hc] at h
    obtain ⟨⟨u, us⟩, hu, hs⟩ := Option.bind_eq_some_iff.mp h
    cases hs
    have hrest := ih hu
    simp only [unlex, escape, List.nil_append] at hrest
    simp [unlex, hrest]
  | case6 tok c d cs hn hc hb ih =>
    rw [lex, if_neg hn, if_neg hc, if_pos hb] at h
    rw [ih h, escape_snoc_special tok hb.2, hb.1]
    simp
  | case7 tok c d cs hn hc hb ih =>
    rw [lex, if_neg hn, if_neg hc, if_neg hb] at h
    rw [ih h, escape_snoc_plain tok hc]
    simp

/-- The tokens of a line hold no newline, and an escaping backslash ends none that a
separator follows. -/
theorem tokens_of_lex {tok s t : Bytes} {toks : List (UInt8 × Bytes)}
    (h : lex tok s = some (t, toks)) (hn : newline ∉ tok)
    (hb : tok.getLast? = some backslash → ∀ c, s.head? = some c → isSpecial c = false) :
    (∀ x ∈ toks, isSpecial x.1 = true) ∧ (∀ v ∈ t :: toks.map (·.2), newline ∉ v) ∧
      ∀ v ∈ (t :: toks.map (·.2)).dropLast, v.getLast? ≠ some backslash := by
  induction tok, s using lex.induct generalizing t toks with
  | case1 tok => cases h
  | case2 tok =>
    cases h
    simpa using hn
  | case3 tok c hc => simp [lex, hc] at h
  | case4 tok d cs => simp [lex] at h
  -- a separator ends the token
  | case5 tok c d cs hcn hc ih =>
    rw [lex, if_neg hcn, if_pos hc] at h
    obtain ⟨⟨u, us⟩, hu, hs⟩ := Option.bind_eq_some_iff.mp h
    cases hs
    obtain ⟨hsep, hline, hlast⟩ := ih hu List.not_mem_nil nofun
    refine ⟨?_, ?_, ?_⟩
    · intro x hx
      rcases List.mem_cons.mp hx with rfl | hx
      · exact hc
      · exact hsep x hx
    · intro v hv
      rcases List.mem_cons.mp hv with rfl | hv
      · exact hn
      · exact hline v hv
    · intro v hv
      rw [List.map_cons, List.dropLast_cons_cons] at hv
      rcases List.mem_cons.mp hv with rfl | hv
      · intro hl
        have := hb hl c rfl
        rw [hc] at this
        cases this
      · exact hlast v hv
  -- a backslash and the separator that it escapes
  | case6 tok c d cs hcn hc hbs ih =>
    rw [lex, if_neg hcn, if_neg hc, if_pos hbs] at h
    refine ih h ?_ ?_
    · intro hmem
      rcases List.mem_append.mp hmem with hmem | hmem
      · exact hn hmem
      · exact special_ne_newline hbs.2 (List.mem_singleton.mp hmem).symm
    · intro hl
      rw [List.getLast?_concat, Option.some.injEq] at hl
      have hd := hbs.2
      rw [hl] at hd
      exact absurd hd (by decide)
  | case7 tok c d cs hcn hc hbs ih =>
    rw [lex, if_neg hcn, if_neg hc, if_neg hbs] at h
    refine ih h ?_ ?_
    · intro hmem
      rcases List.mem_append.mp hmem with hmem | hmem
      · exact hn hmem
      · exact hcn (List.mem_singleton.mp hmem).symm
    -- a backslash that stays is followed by no separator
    · intro hl e he
      rw [List.getLast?_concat, Option.some.injEq] at hl
      cases he
      exact Bool.eq_false_iff.mpr fun hd => hbs ⟨hl, hd⟩

/-- A backslash that a separator follows escapes the separator. -/
theorem lex_backslash {u : Bytes} (hu : newline ∉ u) {c : UInt8} (hc : isSpecial c = true)
    (tok rest : Bytes) :
    lex tok (escape (u ++ [backslash]) ++ c :: rest) = lex (tok ++ u ++ [c]) rest := by
  induction u generalizing tok with
  | nil =>
    have hplain : escape [backslash] = [backslash] := by decide
    rw [List.nil_append, hplain, List.singleton_append, lex,
      if_neg (by decide), if_neg (by decide), if_pos ⟨rfl, hc⟩, List.append_nil]
  | cons b u ih =>
    have hb : b ≠ newline := fun h => hu (by simp [h])
    have hnext : ∃ e, (escape (u ++ [backslash]) ++ c :: rest).head? = some e ∧
        isSpecial e = false := by
      cases hv : escape (u ++ [backslash]) with
      | nil => simp [escape, isSpecial, backslash, comma, equals, space] at hv
      | cons e es => exact ⟨e, rfl, escape_head hv⟩
    obtain ⟨e, he, hbe⟩ := hnext
    rw [List.cons_append, lex_escape_cons hb he fun _ => hbe, ih fun h => hu (by simp [h])]
    simp

/-- A newline in a value ends the line too early. -/
theorem newline_unlex {t : Bytes} {toks : List (UInt8 × Bytes)}
    (hsep : ∀ x ∈ toks, isSpecial x.1 = true) :
    newline ∈ (unlex t toks).dropLast ↔ ∃ v ∈ t :: toks.map (·.2), newline ∈ v := by
  have hescape : ∀ v, newline ∈ escape v ↔ newline ∈ v := by
    intro v
    refine ⟨fun h => ?_, mem_escape_of_mem⟩
    rcases mem_escape h with h | h
    · exact h
    · exact absurd h (by decide)
  rw [unlex, List.dropLast_concat, List.mem_append, hescape, List.mem_flatMap]
  constructor
  · rintro (h | ⟨x, hx, h⟩)
    · exact ⟨t, by simp, h⟩
    · rcases List.mem_cons.mp h with h | h
      · exact absurd h.symm (special_ne_newline (hsep x hx))
      · exact ⟨x.2, by simp [List.mem_map_of_mem hx], (hescape _).mp h⟩
  · rintro ⟨v, hv, h⟩
    rcases List.mem_cons.mp hv with rfl | hv
    · exact .inl h
    · obtain ⟨x, hx, rfl⟩ := List.mem_map.mp hv
      exact .inr ⟨x, hx, List.mem_cons_of_mem _ ((hescape _).mpr h)⟩

/-! ## Numbers -/

def isDigit (c : UInt8) : Bool := 48 ≤ c ∧ c ≤ 57

def isDigits (s : Bytes) : Bool := s ≠ [] ∧ s.all isDigit

/-- `e`, an optional sign, digits. -/
def isExponent : Bytes → Bool
  | 101 :: 43 :: s => isDigits s
  | 101 :: 45 :: s => isDigits s
  | 101 :: s => isDigits s
  | _ => false

/-- What may follow the integer digits of a number: nothing, the suffix `i` of an integer,
a fraction, an exponent. -/
def isNumberTail : Bytes → Bool
  | [] => true
  | [105] => true
  | 46 :: s =>
    s.takeWhile isDigit ≠ [] ∧ (s.dropWhile isDigit = [] ∨ isExponent (s.dropWhile isDigit))
  | s => isExponent s

def dropMinus : Bytes → Bytes
  | 45 :: s => s
  | s => s

/-- The numbers that a field can have: floats, and integers with the suffix `i`. -/
def isNumber (s : Bytes) : Bool :=
  (dropMinus s).takeWhile isDigit ≠ [] ∧ isNumberTail ((dropMinus s).dropWhile isDigit)

/-- The bytes of numbers. -/
def isNumberByte (c : UInt8) : Bool := isDigit c ∨ c = 43 ∨ c = 45 ∨ c = 46 ∨ c = 101 ∨ c = 105

theorem isDigits_bytes {s : Bytes} (h : isDigits s = true) : ∀ c ∈ s, isNumberByte c = true := by
  intro c hc
  simp only [isDigits, ne_eq, Bool.decide_and, Bool.and_eq_true, decide_eq_true_eq,
    List.all_eq_true] at h
  simp [isNumberByte, h.2 c hc]

theorem isExponent_bytes {s : Bytes} (h : isExponent s = true) :
    ∀ c ∈ s, isNumberByte c = true := by
  unfold isExponent at h
  split at h
  · simpa [isNumberByte] using isDigits_bytes h
  · simpa [isNumberByte] using isDigits_bytes h
  · simpa [isNumberByte] using isDigits_bytes h
  · cases h

theorem digits_append_bytes {s : Bytes}
    (h : ∀ c ∈ s.dropWhile isDigit, isNumberByte c = true) : ∀ c ∈ s, isNumberByte c = true := by
  intro c hc
  rw [← List.takeWhile_append_dropWhile (p := isDigit) (l := s)] at hc
  rcases List.mem_append.mp hc with hc | hc
  · simp [isNumberByte, List.mem_takeWhile_imp hc]
  · exact h c hc

theorem isNumberTail_bytes {s : Bytes} (h : isNumberTail s = true) :
    ∀ c ∈ s, isNumberByte c = true := by
  unfold isNumberTail at h
  split at h
  · exact fun c hc => absurd hc List.not_mem_nil
  · exact List.forall_mem_singleton.mpr rfl
  · next s =>
    simp only [ne_eq, decide_not, Bool.decide_and, Bool.decide_or, Bool.decide_eq_true,
      Bool.and_eq_true, Bool.or_eq_true, decide_eq_true_eq] at h
    have htail : ∀ c ∈ s, isNumberByte c = true := by
      refine digits_append_bytes fun c hc => ?_
      rcases h.2 with hnil | hexp
      · rw [hnil] at hc
        cases hc
      · exact isExponent_bytes hexp c hc
    intro c hc
    rcases List.mem_cons.mp hc with rfl | hc
    · decide
    · exact htail c hc
  · exact isExponent_bytes h

theorem isNumber_bytes {s : Bytes} (h : isNumber s = true) : ∀ c ∈ s, isNumberByte c = true := by
  simp only [isNumber, ne_eq, decide_not, Bool.decide_and, Bool.decide_eq_true,
    Bool.and_eq_true] at h
  have hbody := digits_append_bytes (isNumberTail_bytes h.2)
  unfold dropMinus at hbody
  split at hbody
  · intro c hc
    rcases List.mem_cons.mp hc with rfl | hc
    · decide
    · exact hbody c hc
  · exact hbody

theorem isNumberByte_plain {c : UInt8} (h : isNumberByte c = true) :
    isSpecial c = false ∧ c ≠ newline ∧ c ≠ backslash := by
  refine ⟨Bool.eq_false_iff.mpr fun hs => ?_, ?_, ?_⟩
  · simp only [isSpecial, Bool.decide_or, Bool.or_eq_true, decide_eq_true_eq] at hs
    rcases hs with rfl | rfl | rfl <;> exact absurd h (by decide)
  · rintro rfl
    exact absurd h (by decide)
  · rintro rfl
    exact absurd h (by decide)

theorem isNumber_token {s : Bytes} (h : isNumber s = true) : Token s := by
  refine ⟨fun hn => (isNumberByte_plain (isNumber_bytes h _ hn)).2.1 rfl, fun hb => ?_⟩
  exact (isNumberByte_plain (isNumber_bytes h _ (List.mem_of_getLast? hb))).2.2 rfl

theorem isDigits_token {s : Bytes} (h : isDigits s = true) : Token s := by
  refine ⟨fun hn => (isNumberByte_plain (isDigits_bytes h _ hn)).2.1 rfl, fun hb => ?_⟩
  exact (isNumberByte_plain (isDigits_bytes h _ (List.mem_of_getLast? hb))).2.2 rfl

end LineProtocol
