import Mathlib.Data.List.Dedup
import TrafficAnalyzer.Lib.LineTokens

/-!
# The line protocol of InfluxDB

One point per line: a measurement, tags, fields and an optional timestamp. Tag values are
not empty; field values are numbers here (the grammar also has strings and booleans, which
no point of this library carries).

* `parse_render`: a well-formed point is read back from its text.
* `render_of_parse`: a text that parses is the text of a well-formed point.
* `parse_render_eq_some`: a line with arbitrary tag values is readable exactly if its point
  is well formed.
* `length_foldl_write`: as many points are stored as there are different keys.
-/

namespace LineProtocol

/-! ## Points -/

/-- A point; fields and timestamp are kept as texts. -/
structure Point where
  measurement : Bytes
  tags : List (Bytes × Bytes)
  fields : List (Bytes × Bytes)
  timestamp : Option Bytes
deriving DecidableEq, Repr

/-- A series key and a timestamp identify a stored point. -/
def Point.key (p : Point) : Bytes × List (Bytes × Bytes) × Option Bytes :=
  (p.measurement, p.tags, p.timestamp)

/-- A key with its value, after the separator `sep`. -/
def pairTokens (sep : UInt8) (x : Bytes × Bytes) : List (UInt8 × Bytes) :=
  [(sep, x.1), (equals, x.2)]

/-- The tokens of a point after its measurement. -/
def Point.tokens (p : Point) : List (UInt8 × Bytes) :=
  p.tags.flatMap (pairTokens comma) ++
    (match p.fields with
      | [] => []
      | f :: fs => pairTokens space f ++ fs.flatMap (pairTokens comma)) ++
    (p.timestamp.toList.map fun t => (space, t))

/-- The text of a point. -/
def render (p : Point) : Bytes := unlex p.measurement p.tokens

/-- What the grammar asks of the parts of a point. -/
structure Point.WellFormed (p : Point) : Prop where
  measurement : Token p.measurement ∧ p.measurement ≠ []
  tags : ∀ t ∈ p.tags, (Token t.1 ∧ t.1 ≠ []) ∧ Token t.2 ∧ t.2 ≠ []
  fields : ∀ f ∈ p.fields, (Token f.1 ∧ f.1 ≠ []) ∧ isNumber f.2 = true
  some_field : p.fields ≠ []
  timestamp : ∀ t ∈ p.timestamp, isDigits t = true

/-- What a writer guarantees whatever the tag values are: the keys are in order and the
values of the fields are at least tokens. -/
structure Point.Shaped (p : Point) : Prop where
  measurement : Token p.measurement ∧ p.measurement ≠ []
  tags : ∀ t ∈ p.tags, Token t.1 ∧ t.1 ≠ []
  fields : ∀ f ∈ p.fields, (Token f.1 ∧ f.1 ≠ []) ∧ Token f.2
  some_field : p.fields ≠ []
  timestamp : ∀ t ∈ p.timestamp, isDigits t = true

theorem Point.Shaped.wellFormed_iff {p : Point} (h : p.Shaped) :
    p.WellFormed ↔ (∀ t ∈ p.tags, Token t.2 ∧ t.2 ≠ []) ∧ ∀ f ∈ p.fields, isNumber f.2 = true := by
  refine ⟨fun hw => ⟨fun t ht => (hw.tags t ht).2, fun f hf => (hw.fields f hf).2⟩, ?_⟩
  rintro ⟨htags, hfields⟩
  exact ⟨h.measurement, fun t ht => ⟨h.tags t ht, htags t ht⟩,
    fun f hf => ⟨(h.fields f hf).1, hfields f hf⟩, h.some_field, h.timestamp⟩

theorem Point.WellFormed.shaped {p : Point} (h : p.WellFormed) : p.Shaped :=
  ⟨h.measurement, fun t ht => (h.tags t ht).1,
    fun f hf => ⟨(h.fields f hf).1, isNumber_token (h.fields f hf).2⟩, h.some_field, h.timestamp⟩

/-- The pairs that begin with a comma, and the tokens after them. -/
def parsePairs : List (UInt8 × Bytes) → Option (List (Bytes × Bytes) × List (UInt8 × Bytes))
  | (sep, k) :: (eq, v) :: toks =>
    if sep ≠ comma then some ([], (sep, k) :: (eq, v) :: toks)
    else if eq = equals ∧ k ≠ [] then do
      let (pairs, rest) ← parsePairs toks
      some ((k, v) :: pairs, rest)
    else none
  | toks => some ([], toks)

def parseTimestamp : List (UInt8 × Bytes) → Option (Option Bytes)
  | [] => some none
  | [(sep, t)] => if sep = space ∧ isDigits t then some (some t) else none
  | _ => none

/-- The fields and the timestamp. -/
def parseFields : List (UInt8 × Bytes) → Option (List (Bytes × Bytes) × Option Bytes)
  | (sep, k) :: (eq, v) :: toks =>
    if sep = space ∧ eq = equals ∧ k ≠ [] then do
      let (more, rest) ← parsePairs toks
      let timestamp ← parseTimestamp rest
      if ((k, v) :: more).all fun f => isNumber f.2 then some ((k, v) :: more, timestamp) else none
    else none
  | _ => none

/-- A line as a point. -/
def parse (s : Bytes) : Option Point := do
  let (measurement, toks) ← lex [] s
  let (tags, rest) ← parsePairs toks
  let (fields, timestamp) ← parseFields rest
  if measurement ≠ [] ∧ tags.all fun t => t.2 ≠ [] then
    some ⟨measurement, tags, fields, timestamp⟩
  else none

example : parse (ascii "traffic,src=a\\ b port=80i,bytes=1.5e+06\n") =
    some ⟨ascii "traffic", [(ascii "src", ascii "a b")],
      [(ascii "port", ascii "80i"), (ascii "bytes", ascii "1.5e+06")], none⟩ := by
  decide

/-- Pairs are read up to the first token that no comma precedes. -/
theorem parsePairs_append {xs : List (Bytes × Bytes)} {rest : List (UInt8 × Bytes)}
    (hk : ∀ x ∈ xs, x.1 ≠ []) (hrest : ∀ t, rest.head? = some t → t.1 ≠ comma) :
    parsePairs (xs.flatMap (pairTokens comma) ++ rest) = some (xs, rest) := by
  induction xs with
  | nil =>
    rw [List.flatMap_nil, List.nil_append]
    unfold parsePairs
    split
    · rw [if_pos (hrest _ rfl)]
    · rfl
  | cons x xs ih =>
    simp only [List.flatMap_cons, pairTokens, List.cons_append, List.nil_append, parsePairs]
    rw [if_neg (by simp), if_pos ⟨trivial, hk x (by simp)⟩,
      ih fun y hy => hk y (List.mem_cons_of_mem _ hy)]
    rfl

theorem parsePairs_eq_some {toks rest : List (UInt8 × Bytes)} {xs : List (Bytes × Bytes)}
    (h : parsePairs toks = some (xs, rest)) :
    toks = xs.flatMap (pairTokens comma) ++ rest ∧ ∀ x ∈ xs, x.1 ≠ [] := by
  induction toks using parsePairs.induct generalizing xs rest with
  | case1 sep k eq v toks hsep =>
    rw [parsePairs, if_pos hsep] at h
    cases h
    simp
  | case2 sep k eq v toks hsep heq ih =>
    rw [parsePairs, if_neg hsep, if_pos heq] at h
    obtain ⟨⟨ys, r⟩, hys, hs⟩ := Option.bind_eq_some_iff.mp h
    cases hs
    obtain ⟨htoks, hk⟩ := ih hys
    have hcomma : sep = comma := not_not.mp hsep
    refine ⟨by rw [htoks, hcomma, heq.1]; rfl, fun x hx => ?_⟩
    rcases List.mem_cons.mp hx with rfl | hx
    · exact heq.2
    · exact hk x hx
  | case3 sep k eq v toks hsep heq =>
    rw [parsePairs, if_neg hsep, if_neg heq] at h
    cases h
  | case4 toks hno =>
    have hnil : parsePairs toks = some ([], toks) := by
      unfold parsePairs
      split
      · next h => exact absurd rfl (hno _ _ _ _ _)
      · rfl
    rw [hnil] at h
    cases h
    simp

/-! ## The round trip -/

theorem Point.separators (p : Point) : ∀ x ∈ p.tokens, isSpecial x.1 = true := by
  intro x hx
  have hpair : ∀ {sep : UInt8} {y : Bytes × Bytes}, isSpecial sep = true →
      x ∈ pairTokens sep y → isSpecial x.1 = true := by
    intro sep y hsep hmem
    rcases List.mem_cons.mp hmem with rfl | hmem
    · exact hsep
    · rw [List.mem_singleton.mp hmem]
      rfl
  simp only [Point.tokens, List.mem_append, List.mem_flatMap, List.mem_map] at hx
  rcases hx with (⟨y, _, hy⟩ | hf) | ⟨t, _, rfl⟩
  · exact hpair rfl hy
  · cases hfields : p.fields with
    | nil => simp [hfields] at hf
    | cons f fs =>
      simp only [hfields, List.mem_append, List.mem_flatMap] at hf
      rcases hf with hf | ⟨y, _, hy⟩
      · exact hpair rfl hf
      · exact hpair rfl hy
  · rfl

/-- The texts of a point are those of its parts. -/
theorem Point.mem_tokens {p : Point} {v : Bytes} (h : v ∈ p.tokens.map (·.2)) :
    (∃ t ∈ p.tags, v = t.1 ∨ v = t.2) ∨ (∃ f ∈ p.fields, v = f.1 ∨ v = f.2) ∨
      v ∈ p.timestamp := by
  have hpair : ∀ {sep : UInt8} {y : Bytes × Bytes} {z : UInt8 × Bytes},
      z ∈ pairTokens sep y → z.2 = y.1 ∨ z.2 = y.2 := by
    intro sep y z hmem
    rcases List.mem_cons.mp hmem with rfl | hmem
    · exact .inl rfl
    · rw [List.mem_singleton.mp hmem]
      exact .inr rfl
  obtain ⟨z, hz, rfl⟩ := List.mem_map.mp h
  simp only [Point.tokens, List.mem_append, List.mem_flatMap, List.mem_map] at hz
  rcases hz with (⟨y, hy, hmem⟩ | hf) | ⟨t, ht, rfl⟩
  · exact .inl ⟨y, hy, hpair hmem⟩
  · cases hfields : p.fields with
    | nil => simp [hfields] at hf
    | cons f fs =>
      simp only [hfields, List.mem_append, List.mem_flatMap] at hf
      rcases hf with hf | ⟨y, hy, hmem⟩
      · exact .inr (.inl ⟨f, by simp, hpair hf⟩)
      · exact .inr (.inl ⟨y, List.mem_cons_of_mem _ hy, hpair hmem⟩)
  · exact .inr (.inr (by simpa using ht))

theorem Point.Shaped.tokens_token {p : Point} (h : p.Shaped) (hv : ∀ t ∈ p.tags, Token t.2) :
    ∀ v ∈ p.measurement :: p.tokens.map (·.2), Token v := by
  intro v hmem
  rcases List.mem_cons.mp hmem with rfl | hmem
  · exact h.measurement.1
  rcases Point.mem_tokens hmem with ⟨t, ht, rfl | rfl⟩ | ⟨f, hf, rfl | rfl⟩ | ht
  · exact (h.tags t ht).1
  · exact hv t ht
  · exact (h.fields f hf).1.1
  · exact (h.fields f hf).2
  · exact isDigits_token (h.timestamp v ht)

theorem Point.WellFormed.tokens_token {p : Point} (h : p.WellFormed) :
    ∀ v ∈ p.measurement :: p.tokens.map (·.2), Token v :=
  h.shaped.tokens_token fun t ht => (h.tags t ht).2.1

theorem parseTimestamp_tokens {t : Option Bytes} (h : ∀ d ∈ t, isDigits d = true) :
    parseTimestamp (t.toList.map fun d => (space, d)) = some t := by
  cases t with
  | none => rfl
  | some d => exact if_pos ⟨rfl, h d rfl⟩

/-- A well-formed point is read back from its text. -/
theorem parse_render {p : Point} (h : p.WellFormed) : parse (render p) = some p := by
  obtain ⟨m, tags, fields, timestamp⟩ := p
  have hlex := lex_unlex (Point.separators _) h.tokens_token
  obtain ⟨hm, htags, hfields, hsome, htime⟩ := h
  cases fields with
  | nil => exact absurd rfl hsome
  | cons f fs =>
    obtain ⟨k, v⟩ := f
    have hmore : parsePairs (fs.flatMap (pairTokens comma) ++
        timestamp.toList.map fun t => (space, t)) =
        some (fs, timestamp.toList.map fun t => (space, t)) := by
      refine parsePairs_append (fun g hg => (hfields g (List.mem_cons_of_mem _ hg)).1.2) ?_
      cases timestamp <;> simp [comma, space]
    have hpf : parseFields (pairTokens space (k, v) ++ (fs.flatMap (pairTokens comma) ++
        timestamp.toList.map fun t => (space, t))) = some ((k, v) :: fs, timestamp) := by
      have hall : ((k, v) :: fs).all (fun f => isNumber f.2) = true :=
        List.all_eq_true.mpr fun g hg => (hfields g hg).2
      rw [pairTokens, List.cons_append, List.cons_append, List.nil_append, parseFields,
        if_pos ⟨rfl, rfl, (hfields (k, v) (by simp)).1.2⟩, hmore]
      simp only [Option.bind_eq_bind, Option.bind_some, parseTimestamp_tokens htime, hall,
        ↓reduceIte]
    have hpt : parsePairs (tags.flatMap (pairTokens comma) ++ (pairTokens space (k, v) ++
        (fs.flatMap (pairTokens comma) ++ timestamp.toList.map fun t => (space, t)))) =
        some (tags, pairTokens space (k, v) ++ (fs.flatMap (pairTokens comma) ++
          timestamp.toList.map fun t => (space, t))) :=
      parsePairs_append (fun t ht => (htags t ht).1.2) (by simp [pairTokens, comma, space])
    have htokens : (Point.mk m tags ((k, v) :: fs) timestamp).tokens =
        tags.flatMap (pairTokens comma) ++ (pairTokens space (k, v) ++
          (fs.flatMap (pairTokens comma) ++ timestamp.toList.map fun t => (space, t))) := by
      simp [Point.tokens, List.append_assoc]
    have hne : tags.all (fun t => decide (t.2 ≠ [])) = true :=
      List.all_eq_true.mpr fun t ht => decide_eq_true (htags t ht).2.2
    rw [render, parse, hlex]
    simp only [Option.bind_eq_bind, Option.bind_some]
    rw [htokens, hpt]
    simp only [Option.bind_some, hpf]
    rw [if_pos ⟨hm.2, hne⟩]

theorem parseTimestamp_eq_some {toks : List (UInt8 × Bytes)} {t : Option Bytes}
    (h : parseTimestamp toks = some t) :
    toks = t.toList.map (fun d => (space, d)) ∧ ∀ d ∈ t, isDigits d = true := by
  unfold parseTimestamp at h
  split at h
  · cases h
    simp
  · next sep d =>
    split at h <;> cases h
    next hd =>
    rw [hd.1]
    exact ⟨rfl, by rintro _ ⟨⟩; exact hd.2⟩
  · cases h

theorem parseFields_eq_some {toks : List (UInt8 × Bytes)} {fields : List (Bytes × Bytes)}
    {t : Option Bytes} (h : parseFields toks = some (fields, t)) :
    ∃ f fs, fields = f :: fs ∧ toks = pairTokens space f ++ fs.flatMap (pairTokens comma) ++
      t.toList.map (fun d => (space, d)) ∧ (∀ f ∈ fields, f.1 ≠ [] ∧ isNumber f.2 = true) ∧
      ∀ d ∈ t, isDigits d = true := by
  unfold parseFields at h
  split at h
  · next sep k eq v toks =>
    split at h
    · next hc =>
      obtain ⟨⟨more, rest⟩, hmore, h1⟩ := Option.bind_eq_some_iff.mp h
      obtain ⟨ts, hts, h2⟩ := Option.bind_eq_some_iff.mp h1
      clear h h1
      obtain ⟨rfl, hk⟩ := parsePairs_eq_some hmore
      obtain ⟨rfl, hd⟩ := parseTimestamp_eq_some hts
      split at h2 <;> cases h2
      next hall =>
      rw [List.all_eq_true] at hall
      refine ⟨(k, v), more, rfl, ?_, fun f hf => ⟨?_, hall f hf⟩, hd⟩
      · rw [hc.1, hc.2.1, pairTokens, List.append_assoc]
        rfl
      · rcases List.mem_cons.mp hf with rfl | hf
        · exact hc.2.2
        · exact hk f hf
    · cases h
  · cases h

theorem mem_dropLast_or_getLast {α : Type*} {a : α} {l : List α} (h : a ∈ l) :
    a ∈ l.dropLast ∨ l.getLast? = some a := by
  rcases List.eq_nil_or_concat l with rfl | ⟨l, b, rfl⟩
  · cases h
  · rw [List.concat_eq_append] at h ⊢
    rcases List.mem_append.mp h with h | h
    · exact .inl (by simpa using h)
    · exact .inr (by simp [List.mem_singleton.mp h])

theorem fields_getLast {f : Bytes × Bytes} {fs : List (Bytes × Bytes)}
    (h : ∀ g ∈ f :: fs, isNumber g.2 = true) :
    ∃ x, (pairTokens space f ++ fs.flatMap (pairTokens comma)).getLast? = some x ∧
      Token x.2 := by
  rcases List.eq_nil_or_concat fs with rfl | ⟨gs, g, rfl⟩
  · exact ⟨(equals, f.2), by simp [pairTokens], isNumber_token (h f (by simp))⟩
  · refine ⟨(equals, g.2), ?_, isNumber_token (h g (by simp))⟩
    simp [pairTokens, List.flatMap_append, List.getLast?_cons]

/-- The last token of a line is a number. -/
theorem tokens_getLast {pre : List (UInt8 × Bytes)} {f : Bytes × Bytes}
    {fs : List (Bytes × Bytes)} {t : Option Bytes} (h : ∀ g ∈ f :: fs, isNumber g.2 = true)
    (ht : ∀ d ∈ t, isDigits d = true) :
    ∃ x, (pre ++ (pairTokens space f ++ fs.flatMap (pairTokens comma) ++
      t.toList.map fun d => (space, d))).getLast? = some x ∧ Token x.2 := by
  cases t with
  | none =>
    obtain ⟨x, hx, htok⟩ := fields_getLast h
    exact ⟨x, by simp [List.getLast?_append, hx], htok⟩
  | some d => exact ⟨(space, d), by simp, isDigits_token (ht d rfl)⟩

/-- A text that parses is the text of the point, and the point is well formed. -/
theorem render_of_parse {s : Bytes} {p : Point} (h : parse s = some p) :
    render p = s ∧ p.WellFormed := by
  obtain ⟨⟨m, toks⟩, hlex, h1⟩ := Option.bind_eq_some_iff.mp h
  obtain ⟨⟨tags, rest⟩, hpairs, h2⟩ := Option.bind_eq_some_iff.mp h1
  obtain ⟨⟨fields, t⟩, hparse, h3⟩ := Option.bind_eq_some_iff.mp h2
  clear h h1 h2
  dsimp only at h3
  split at h3 <;> cases h3
  next hc =>
  obtain ⟨rfl, hkeys⟩ := parsePairs_eq_some hpairs
  obtain ⟨f, fs, rfl, rfl, hnum, htime⟩ := parseFields_eq_some hparse
  obtain ⟨-, hnl, hbs⟩ := tokens_of_lex hlex (by simp) (by simp)
  obtain ⟨x, hlast, hx⟩ := @tokens_getLast (tags.flatMap (pairTokens comma)) _ _ _
    (fun g hg => (hnum g hg).2) htime
  have htoken : ∀ v ∈ m :: (tags.flatMap (pairTokens comma) ++ (pairTokens space f ++
      fs.flatMap (pairTokens comma) ++ t.toList.map fun d => (space, d))).map (·.2), Token v := by
    intro v hv
    refine ⟨hnl v hv, ?_⟩
    rcases mem_dropLast_or_getLast hv with hinit | hend
    · exact hbs v hinit
    · -- Only the last token may end in a backslash, and it is a number.
      rw [List.getLast?_cons, List.getLast?_map, hlast] at hend
      cases hend
      exact hx.2
  have hm := htoken m (by simp)
  have htag : ∀ g ∈ tags, Token g.1 ∧ Token g.2 := by
    intro g hg
    constructor <;> refine htoken _ (List.mem_cons_of_mem _ ?_) <;>
      simp only [List.map_append, List.mem_append, List.mem_map, List.mem_flatMap]
    · exact .inl ⟨_, ⟨g, hg, List.mem_cons_self⟩, rfl⟩
    · exact .inl ⟨_, ⟨g, hg, List.mem_cons_of_mem _ List.mem_cons_self⟩, rfl⟩
  have hfield : ∀ g ∈ f :: fs, Token g.1 := by
    intro g hg
    refine htoken _ (List.mem_cons_of_mem _ ?_)
    simp only [List.map_append, List.mem_append, List.mem_map, List.mem_flatMap]
    rcases List.mem_cons.mp hg with rfl | hg
    · exact .inr (.inl (.inl ⟨_, List.mem_cons_self, rfl⟩))
    · exact .inr (.inl (.inr ⟨_, ⟨g, hg, List.mem_cons_self⟩, rfl⟩))
  refine ⟨?_, ⟨hm, hc.1⟩, fun g hg => ⟨⟨(htag g hg).1, hkeys g hg⟩, (htag g hg).2, ?_⟩,
    fun g hg => ⟨⟨hfield g hg, (hnum g hg).1⟩, (hnum g hg).2⟩, by simp, htime⟩
  · have := unlex_of_lex hlex
    rw [escape, List.nil_append] at this
    rw [← this, render, Point.tokens]
    simp only [List.append_assoc]
  · simpa using List.all_eq_true.mp hc.2 g hg

/-! ## Lines of arbitrary values -/

/-- No choice of pairs leaves fields that can be read. -/
def Unreadable (toks : List (UInt8 × Bytes)) : Prop :=
  ∀ xs rest, parsePairs toks = some (xs, rest) → parseFields rest = none

theorem unreadable_cons {toks : List (UInt8 × Bytes)} (h : Unreadable toks) (k v : Bytes) :
    Unreadable ((comma, k) :: (equals, v) :: toks) := by
  intro xs rest hp
  rw [parsePairs, if_neg (by simp)] at hp
  split at hp
  · obtain ⟨⟨ys, r⟩, hys, hs⟩ := Option.bind_eq_some_iff.mp hp
    cases hs
    exact h ys rest hys
  · cases hp

theorem unreadable_equals (k v w : Bytes) (toks : List (UInt8 × Bytes)) :
    Unreadable ((comma, k) :: (equals, v) :: (equals, w) :: toks) := by
  refine unreadable_cons ?_ k v
  intro xs rest hp
  cases toks with
  | nil =>
    cases hp
    rfl
  | cons x toks =>
    rw [parsePairs, if_pos (by decide)] at hp
    cases hp
    rw [parseFields, if_neg]
    rintro ⟨hsep, _⟩
    exact absurd hsep (by decide)

/-- A tag value that ends in a backslash swallows the separator after it, and the next key
with it. -/
theorem unreadable_of_backslash {xs : List (Bytes × Bytes)} {m k w : Bytes}
    {more : List (UInt8 × Bytes)} (hm : Token m) (hk : Token k)
    (hx : ∀ x ∈ xs, Token x.1 ∧ newline ∉ x.2)
    (hbad : ∃ x ∈ xs, x.2.getLast? = some backslash) {t : Bytes} {toks : List (UInt8 × Bytes)}
    (h : lex [] (unlex m (xs.flatMap (pairTokens comma) ++ (space, k) :: (equals, w) :: more)) =
      some (t, toks)) : Unreadable toks := by
  induction xs generalizing m t toks with
  | nil =>
    obtain ⟨x, hx, _⟩ := hbad
    cases hx
  | cons x xs ih =>
    obtain ⟨key, v⟩ := x
    obtain ⟨hkey, hv⟩ := hx (key, v) (by simp)
    simp only [List.flatMap_cons, pairTokens, List.cons_append, List.nil_append] at h
    rw [lex_unlex_cons hm rfl, lex_unlex_cons hkey rfl] at h
    obtain ⟨r, hr, hs⟩ := Option.bind_eq_some_iff.mp h
    obtain ⟨⟨u, us⟩, hu, hus⟩ := Option.bind_eq_some_iff.mp hr
    cases hs
    cases hus
    by_cases hlast : v.getLast? = some backslash
    · -- the value runs on through the separator up to the next `=`
      obtain ⟨v', rfl⟩ := List.getLast?_eq_some_iff.mp hlast
      have hnext : ∃ c k' w' rest, isSpecial c = true ∧ Token k' ∧
          xs.flatMap (pairTokens comma) ++ (space, k) :: (equals, w) :: more =
            (c, k') :: (equals, w') :: rest := by
        cases xs with
        | nil => exact ⟨space, k, w, more, rfl, hk, rfl⟩
        | cons y ys => exact ⟨comma, y.1, y.2, _, rfl, (hx y (by simp)).1, rfl⟩
      obtain ⟨c, k', w', rest, hc, hk', hshape⟩ := hnext
      rw [hshape, unlex_cons, lex_backslash (fun hn => hv (by simp [hn])) hc,
        lex_unlex_cons hk' rfl] at hu
      obtain ⟨r', hr', hs⟩ := Option.bind_eq_some_iff.mp hu
      cases hs
      exact unreadable_equals _ _ _ _
    · refine unreadable_cons (ih ⟨hv, hlast⟩ (fun y hy => hx y (List.mem_cons_of_mem _ hy)) ?_ hu)
        _ _
      obtain ⟨y, hy, hyb⟩ := hbad
      rcases List.mem_cons.mp hy with rfl | hy
      · exact absurd hyb hlast
      · exact ⟨y, hy, hyb⟩

theorem Point.tokens_eq_cons {p : Point} {f : Bytes × Bytes} {fs : List (Bytes × Bytes)}
    (h : p.fields = f :: fs) :
    p.tokens = p.tags.flatMap (pairTokens comma) ++ ((space, f.1) :: (equals, f.2) ::
      (fs.flatMap (pairTokens comma) ++ p.timestamp.toList.map fun t => (space, t))) := by
  simp [Point.tokens, h, pairTokens, List.append_assoc]

/-- The tokens of a point determine its tags, its fields and its timestamp. -/
theorem Point.tokens_inj {p q : Point} (hp : p.Shaped) (hq : q.Shaped)
    (h : p.tokens = q.tokens) :
    p.tags = q.tags ∧ p.fields = q.fields ∧ p.timestamp = q.timestamp := by
  obtain ⟨f, fs, hf⟩ := List.exists_cons_of_ne_nil hp.some_field
  obtain ⟨g, gs, hg⟩ := List.exists_cons_of_ne_nil hq.some_field
  rw [Point.tokens_eq_cons hf, Point.tokens_eq_cons hg] at h
  have htags := congrArg parsePairs h
  rw [parsePairs_append (fun t ht => (hp.tags t ht).2) (by simp [space, comma]),
    parsePairs_append (fun t ht => (hq.tags t ht).2) (by simp [space, comma])] at htags
  simp only [Option.some.injEq, Prod.mk.injEq, List.cons.injEq, true_and] at htags
  obtain ⟨htags, hkey, hval, hrest⟩ := htags
  have hfields := congrArg parsePairs hrest
  have htime : ∀ (t : Option Bytes) (x : UInt8 × Bytes),
      (t.toList.map fun d => (space, d)).head? = some x → x.1 ≠ comma := by
    rintro (_ | d) x hx
    · cases hx
    · cases hx
      exact (by decide : space ≠ comma)
  rw [parsePairs_append (fun x hx => (hp.fields x (hf ▸ List.mem_cons_of_mem _ hx)).1.2)
      (htime p.timestamp),
    parsePairs_append (fun x hx => (hq.fields x (hg ▸ List.mem_cons_of_mem _ hx)).1.2)
      (htime q.timestamp)] at hfields
  simp only [Option.some.injEq, Prod.mk.injEq] at hfields
  refine ⟨htags, ?_, ?_⟩
  · rw [hf, hg, hfields.1, Prod.ext hkey hval]
  · have hts := hfields.2
    cases hpt : p.timestamp <;> cases hqt : q.timestamp <;> simp_all

/-- The line of a point with arbitrary tag values is readable exactly if the point is well
formed. -/
theorem parse_render_eq_some {p q : Point} (hp : p.Shaped) :
    parse (render p) = some q ↔ p.WellFormed ∧ q = p := by
  constructor
  · intro h
    obtain ⟨hr, hq⟩ := render_of_parse h
    -- a newline in a tag value would be one inside the line that was read
    have hnl : ∀ t ∈ p.tags, newline ∉ t.2 := by
      intro t ht hn
      have hmem : t.2 ∈ p.tokens.map (·.2) := by
        refine List.mem_map.mpr ⟨(equals, t.2), ?_, rfl⟩
        simp only [Point.tokens, List.mem_append, List.mem_flatMap]
        exact .inl (.inl ⟨t, ht, List.mem_cons_of_mem _ List.mem_cons_self⟩)
      have hline : newline ∈ (render p).dropLast :=
        (newline_unlex p.separators).mpr ⟨t.2, List.mem_cons_of_mem _ hmem, hn⟩
      rw [← hr] at hline
      obtain ⟨v, hv, hvn⟩ := (newline_unlex q.separators).mp hline
      exact (hq.tokens_token v hv).1 hvn
    obtain ⟨⟨m, toks⟩, hlex, h1⟩ := Option.bind_eq_some_iff.mp h
    obtain ⟨⟨tags, rest⟩, hpairs, h2⟩ := Option.bind_eq_some_iff.mp h1
    obtain ⟨fields, hfields, _⟩ := Option.bind_eq_some_iff.mp h2
    -- a backslash at the end of a tag value would leave no fields to read
    have hbs : ∀ t ∈ p.tags, t.2.getLast? ≠ some backslash := by
      intro t ht hb
      obtain ⟨f, fs, hf⟩ := List.exists_cons_of_ne_nil hp.some_field
      rw [render, Point.tokens_eq_cons hf] at hlex
      have hun := unreadable_of_backslash hp.measurement.1
        (hp.fields f (by simp [hf])).1.1 (fun x hx => ⟨(hp.tags x hx).1, hnl x hx⟩)
        ⟨t, ht, hb⟩ hlex
      rw [hun _ _ hpairs] at hfields
      cases hfields
    have htok := hp.tokens_token fun t ht => ⟨hnl t ht, hbs t ht⟩
    have hpq : some (p.measurement, p.tokens) = some (q.measurement, q.tokens) := by
      calc some (p.measurement, p.tokens) = lex [] (render p) := (lex_unlex p.separators htok).symm
        _ = lex [] (render q) := by rw [hr]
        _ = some (q.measurement, q.tokens) := lex_unlex q.separators hq.tokens_token
    obtain ⟨hm, htoks⟩ := Prod.mk.inj (Option.some.inj hpq)
    obtain ⟨htags, hfs, hts⟩ := Point.tokens_inj hp hq.shaped htoks
    obtain rfl : q = p := by
      cases p
      cases q
      simp_all
    exact ⟨hq, rfl⟩
  · rintro ⟨hw, rfl⟩
    exact parse_render hw

/-! ## Writing points -/

/-- A store holds one point for each key; a later point replaces an earlier one. -/
def write (store : List Point) (p : Point) : List Point := store.filter (·.key ≠ p.key) ++ [p]

theorem mem_keys_write (store : List Point) (p : Point) (k : Bytes × List (Bytes × Bytes) ×
    Option Bytes) : k ∈ (write store p).map (·.key) ↔ k ∈ store.map (·.key) ∨ k = p.key := by
  simp only [write, List.map_append, List.mem_append, List.mem_map, List.mem_filter,
    decide_eq_true_eq, List.map_cons, List.map_nil, List.mem_singleton]
  constructor
  · rintro (⟨q, ⟨hq, -⟩, rfl⟩ | h)
    · exact .inl ⟨q, hq, rfl⟩
    · exact .inr h
  · rintro (⟨q, hq, rfl⟩ | h)
    · by_cases hk : q.key = p.key
      · exact .inr hk
      · exact .inl ⟨q, ⟨hq, hk⟩, rfl⟩
    · exact .inr h

theorem nodup_keys_write {store : List Point} (h : (store.map (·.key)).Nodup) (p : Point) :
    ((write store p).map (·.key)).Nodup := by
  rw [write, List.map_append, List.nodup_append']
  refine ⟨h.sublist (List.filter_sublist.map _), List.nodup_singleton _, fun k hk hk' => ?_⟩
  obtain ⟨q, hq, rfl⟩ := List.mem_map.mp hk
  rw [List.map_singleton, List.mem_singleton] at hk'
  exact of_decide_eq_true (List.mem_filter.mp hq).2 hk'

theorem foldl_write_keys (ps store : List Point) (h : (store.map (·.key)).Nodup) :
    ((ps.foldl write store).map (·.key)).Nodup ∧
      ∀ k, k ∈ (ps.foldl write store).map (·.key) ↔
        k ∈ store.map (·.key) ∨ k ∈ ps.map (·.key) := by
  induction ps generalizing store with
  | nil => exact ⟨h, fun k => by simp⟩
  | cons p ps ih =>
    obtain ⟨hnodup, hmem⟩ := ih (write store p) (nodup_keys_write h p)
    refine ⟨hnodup, fun k => ?_⟩
    rw [List.foldl_cons, hmem, mem_keys_write, List.map_cons, List.mem_cons, or_assoc]

/-- As many points are stored as there are different keys. -/
theorem length_foldl_write (ps : List Point) :
    (ps.foldl write []).length = (ps.map (·.key)).dedup.length := by
  obtain ⟨hnodup, hmem⟩ := foldl_write_keys ps [] List.nodup_nil
  have hperm : ((ps.foldl write []).map (·.key)).Perm (ps.map (·.key)).dedup := by
    refine (List.perm_ext_iff_of_nodup hnodup (List.nodup_dedup _)).mpr fun k => ?_
    rw [hmem, List.mem_dedup]
    simp
  rw [← hperm.length_eq, List.length_map]

end LineProtocol
