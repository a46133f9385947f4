import TrafficAnalyzer.Lib.LineProtocol
import TrafficAnalyzer.Server.Json

/-!
# One event as a line (`lp_escape`, `build_traffic_point` in `src/server/nta_influx.c`)

* `lpEscape_eq`: what `lp_escape` writes is the escape of a prefix of its input.
* `buildTrafficPoint_eq`: `build_traffic_point` writes the line of `trafficPoint`, or
  nothing when it does not fit.
-/

namespace TrafficAnalyzer

open LineProtocol Printf

/-! ## Escaping -/

def maxTagLen : Nat := 128

/-- The loop of `lp_escape` with `w` bytes written: what it writes from there. -/
def lpEscapeLoop (cap : Nat) : Nat → Bytes → Bytes
  | _, [] => []
  | w, c :: cs =>
    if c ≠ 0 ∧ w + 2 < cap then
      if c = 44 ∨ c = 61 ∨ c = 32 then
        if w + 1 + 1 ≥ cap then [92]
        else 92 :: c :: lpEscapeLoop cap (w + 2) cs
      else c :: lpEscapeLoop cap (w + 1) cs
    else []

def lpEscape (cap : Nat) (s : Bytes) : Bytes := lpEscapeLoop cap 0 s

/-! ## Enrichment -/

/-- `NtaGeoResult`. -/
structure GeoResult where
  hasGeo : Bool
  hasAsn : Bool
  lat : Binary64
  lon : Binary64
  asnNumber : UInt32
  asnOrg : CStr

/-- `NtaGeoResult gr = {0}`. -/
def GeoResult.zero : GeoResult := ⟨false, false, .zero, .zero, 0, ⟨[], List.not_mem_nil⟩⟩

/-- The three enrichers, each possibly `NULL`, as functions of the source address. -/
structure Enrichers where
  geo : Option (Bytes → GeoResult)
  ioc : Option (Bytes → Option CStr)
  abuse : Option (Bytes → Int)

/-! ## The writer -/

/-- `snprintf` behind what has been written, with its check. -/
def snprintfAt (cap : Nat) (piece out : Bytes) : Option Bytes :=
  if piece.length = 0 ∨ piece.length ≥ cap - out.length then none else some (out ++ piece)

/-- The same under a condition. -/
def snprintfIf (cap : Nat) (cond : Bool) (piece out : Bytes) : Option Bytes :=
  if cond then snprintfAt cap piece out else some out

/-- The address that `build_traffic_point` looks up and writes. -/
def eventSrcIp (evt : Json) : Bytes := (jsonGetStr evt (ascii "src_ip")).getD (ascii "0.0.0.0")

def geoResult (en : Enrichers) (evt : Json) : GeoResult :=
  match en.geo with
  | some geo => geo (cString (eventSrcIp evt))
  | none => .zero

def iocSource (en : Enrichers) (evt : Json) : Option Bytes :=
  match en.ioc with
  | some ioc => (ioc (cString (eventSrcIp evt))).map (·.1)
  | none => none

def abuseScore (en : Enrichers) (evt : Json) : Option Int :=
  match en.abuse with
  | some abuse =>
    if 0 ≤ abuse (cString (eventSrcIp evt)) then some (abuse (cString (eventSrcIp evt))) else none
  | none => none

/-- `build_traffic_point`: the bytes written to a buffer of `cap` bytes, or `none` where it
returns 0. -/
def buildTrafficPoint (cap : Nat) (evt : Json) (agentId : Option CStr) (en : Enrichers) :
    Option Bytes :=
  if cap < 64 then none
  else do
    let esc := lpEscape maxTagLen
    let agent := match agentId with
      | some s => s.1
      | none => ascii "unknown"
    let attack := (jsonGetStr evt (ascii "attack_type")).getD []
    let stage := (jsonGetStr evt (ascii "kill_chain_stage")).getD []
    let mitre := (jsonGetStr evt (ascii "mitre")).getD []
    let gr := geoResult en evt
    let port := (jsonGetNum evt (ascii "port")).getD .zero
    let bytes := (jsonGetNum evt (ascii "bytes")).getD .zero
    let isScan := (jsonGetNum evt (ascii "is_scan")).getD .zero
    let kcScore := jsonGetNum evt (ascii "kc_score")
    let ioc := iocSource en evt
    let abuse := abuseScore en evt
    let out ← snprintfAt cap (ascii "traffic,agent_id=" ++ esc agent ++ ascii ",src_ip=" ++
      esc (eventSrcIp evt) ++ ascii ",protocol=" ++
      esc ((jsonGetStr evt (ascii "proto")).getD (ascii "UNKNOWN"))) []
    let out ← snprintfIf cap (cString attack ≠ []) (ascii ",attack_type=" ++ esc attack) out
    let out ← snprintfIf cap (cString stage ≠ []) (ascii ",kill_chain_stage=" ++ esc stage) out
    let out ← snprintfIf cap (cString mitre ≠ []) (ascii ",mitre=" ++ esc mitre) out
    let out ← snprintfIf cap ioc.isSome
      (ascii ",ioc_hit=1,ioc_source=" ++ esc (ioc.getD [])) out
    let out ← snprintfIf cap gr.hasAsn
      (ascii ",asn=" ++ esc (ascii "AS" ++ decimal gr.asnNumber.toNat)) out
    let out ← snprintfIf cap (gr.hasAsn ∧ gr.asnOrg.1 ≠ [])
      (ascii ",asn_org=" ++ esc gr.asnOrg.1) out
    let out ← snprintfAt cap (ascii " port=" ++ decimalInt port.toLongLong ++ ascii "i,bytes=" ++
      formatG 6 bytes ++ ascii ",is_scan=" ++ formatG 6 isScan) out
    let out ← snprintfIf cap kcScore.isSome
      (ascii ",kc_score=" ++ formatG 6 (kcScore.getD .zero)) out
    let out ← snprintfIf cap gr.hasGeo
      (ascii ",lat=" ++ formatF 6 gr.lat ++ ascii ",lon=" ++ formatF 6 gr.lon) out
    let out ← snprintfIf cap abuse.isSome
      (ascii ",abuse_score=" ++ decimalInt (abuse.getD 0)) out
    snprintfAt cap (ascii "\n") out

/-! ## What a line should carry -/

/-- A tag that a line may carry: its key, its value if there is one, and whether an empty
value means that there is none. -/
structure TagSlot where
  key : Bytes
  value : Option Bytes
  optional : Bool

/-- The tag of a slot, with its value seen through `view`. -/
def TagSlot.tag (view : Bytes → Bytes) (s : TagSlot) : Option (Bytes × Bytes) :=
  s.value.bind fun v => if s.optional ∧ view v = [] then none else some (s.key, view v)

/-- The tags of the schema, in the order of the line. -/
def tagSlots (evt : Json) (agentId : Option CStr) (en : Enrichers) : List TagSlot :=
  [⟨ascii "agent_id", some ((agentId.map (·.1)).getD (ascii "unknown")), false⟩,
    ⟨ascii "src_ip", some (eventSrcIp evt), false⟩,
    ⟨ascii "protocol", some ((jsonGetStr evt (ascii "proto")).getD (ascii "UNKNOWN")), false⟩,
    ⟨ascii "attack_type", jsonGetStr evt (ascii "attack_type"), true⟩,
    ⟨ascii "kill_chain_stage", jsonGetStr evt (ascii "kill_chain_stage"), true⟩,
    ⟨ascii "mitre", jsonGetStr evt (ascii "mitre"), true⟩,
    ⟨ascii "ioc_hit", (iocSource en evt).map fun _ => ascii "1", false⟩,
    ⟨ascii "ioc_source", iocSource en evt, false⟩,
    ⟨ascii "asn", if (geoResult en evt).hasAsn then
      some (ascii "AS" ++ decimal (geoResult en evt).asnNumber.toNat) else none, false⟩,
    ⟨ascii "asn_org", if (geoResult en evt).hasAsn then some (geoResult en evt).asnOrg.1
      else none, true⟩]

/-- The tags of an event with their original values. -/
def eventTags (evt : Json) (agentId : Option CStr) (en : Enrichers) : List (Bytes × Bytes) :=
  (tagSlots evt agentId en).filterMap (TagSlot.tag id)

/-- The fields of an event, as texts. -/
def eventFields (evt : Json) (en : Enrichers) : List (Bytes × Bytes) :=
  [(ascii "port", decimalInt ((jsonGetNum evt (ascii "port")).getD .zero).toLongLong ++ ascii "i"),
    (ascii "bytes", formatG 6 ((jsonGetNum evt (ascii "bytes")).getD .zero)),
    (ascii "is_scan", formatG 6 ((jsonGetNum evt (ascii "is_scan")).getD .zero))] ++
  (match jsonGetNum evt (ascii "kc_score") with
    | some x => [(ascii "kc_score", formatG 6 x)]
    | none => []) ++
  (if (geoResult en evt).hasGeo then
    [(ascii "lat", formatF 6 (geoResult en evt).lat),
      (ascii "lon", formatF 6 (geoResult en evt).lon)]
  else []) ++
  (match abuseScore en evt with
    | some n => [(ascii "abuse_score", decimalInt n)]
    | none => [])

/-! ## What `lp_escape` keeps -/

/-- The part of its input that the loop of `lp_escape` reads. -/
def lpTakenLoop (cap : Nat) : Nat → Bytes → Bytes
  | _, [] => []
  | w, c :: cs =>
    if c ≠ 0 ∧ w + 2 < cap then c :: lpTakenLoop cap (w + (escape [c]).length) cs else []

def lpTaken (cap : Nat) (s : Bytes) : Bytes := lpTakenLoop cap 0 s

theorem isSpecial_iff {c : UInt8} : isSpecial c = true ↔ c = 44 ∨ c = 61 ∨ c = 32 := by
  exact decide_eq_true_iff

theorem lpEscapeLoop_eq (cap w : Nat) (s : Bytes) :
    lpEscapeLoop cap w s = escape (lpTakenLoop cap w s) := by
  induction s generalizing w with
  | nil => rfl
  | cons c cs ih =>
    rw [lpEscapeLoop, lpTakenLoop]
    split
    · next h =>
      rw [escape]
      by_cases hc : isSpecial c = true
      · -- the check after the backslash cannot fail here
        rw [if_pos (isSpecial_iff.mp hc), if_neg (by omega), if_pos hc, ih]
        simp [escape, hc, backslash]
      · rw [if_neg (fun hs => hc (isSpecial_iff.mpr hs)), if_neg hc, ih]
        simp [escape, hc]
    · rfl

/-- What `lp_escape` writes is the escape of what it keeps. -/
theorem lpEscape_eq (cap : Nat) (s : Bytes) : lpEscape cap s = escape (lpTaken cap s) :=
  lpEscapeLoop_eq cap 0 s

theorem lpTakenLoop_cString (cap w : Nat) (s : Bytes) :
    lpTakenLoop cap w (cString s) = lpTakenLoop cap w s := by
  induction s generalizing w with
  | nil => rfl
  | cons c cs ih =>
    rw [cString, List.takeWhile_cons]
    split
    · rw [lpTakenLoop, lpTakenLoop, ← cString, ih]
    · next hc =>
      have : c = 0 := by simpa using hc
      simp [lpTakenLoop, this]

theorem lpTaken_cString (cap : Nat) (s : Bytes) : lpTaken cap (cString s) = lpTaken cap s :=
  lpTakenLoop_cString cap 0 s

/-- The loop stops one byte early unless the last byte is an escaped one. -/
theorem lpTakenLoop_eq_self {cap w : Nat} {s : Bytes} :
    lpTakenLoop cap w s = s ↔
      (0 : UInt8) ∉ s ∧ (s = [] ∨ w + (escape s.dropLast).length + 2 < cap) := by
  induction s generalizing w with
  | nil => simp [lpTakenLoop]
  | cons c cs ih =>
    rw [lpTakenLoop]
    cases cs with
    | nil =>
      by_cases h : c ≠ 0 ∧ w + 2 < cap
      · simp [h, lpTakenLoop, escape, Ne.symm h.1]
      · simp only [if_neg h, List.dropLast_singleton, escape]
        simp only [List.nil_eq, List.cons_ne_nil, false_iff, List.mem_singleton, false_or,
          List.length_nil, Nat.add_zero]
        exact fun h' => h ⟨fun h0 => h'.1 h0.symm, h'.2⟩
    | cons d ds =>
      have hlen : (escape (c :: (d :: ds).dropLast)).length =
          (escape [c]).length + (escape (d :: ds).dropLast).length := by
        rw [← List.length_append, ← escape_append]
        rfl
      by_cases h : c ≠ 0 ∧ w + 2 < cap
      · rw [if_pos h, List.cons.injEq, eq_self, true_and, ih, List.dropLast_cons_cons, hlen]
        have h0 : (0 : UInt8) ≠ c := Ne.symm h.1
        simp only [List.mem_cons, h0, List.cons_ne_nil, false_or]
        rw [show w + (escape [c]).length + (escape (d :: ds).dropLast).length + 2 =
          w + ((escape [c]).length + (escape (d :: ds).dropLast).length) + 2 by omega]
      · rw [if_neg h]
        simp only [List.nil_eq, List.cons_ne_nil, false_iff, false_or, List.mem_cons, not_or,
          List.dropLast_cons_cons, hlen]
        rintro ⟨⟨h0, _⟩, hw⟩
        exact h ⟨Ne.symm h0, by omega⟩

/-- The values that `lp_escape` does not cut at 128 bytes: the last place of the buffer goes
to an escaped byte only. -/
def FitsTag (s : Bytes) : Prop :=
  (escape s).length ≤ 126 ∨
    (escape s).length = 127 ∧ ∃ c, s.getLast? = some c ∧ isSpecial c = true

theorem lpTaken_eq_self {s : Bytes} :
    lpTaken maxTagLen s = s ↔ (0 : UInt8) ∉ s ∧ FitsTag s := by
  rw [lpTaken, lpTakenLoop_eq_self, maxTagLen]
  refine and_congr_right fun _ => ?_
  rcases List.eq_nil_or_concat s with rfl | ⟨u, c, rfl⟩
  · simp [FitsTag, escape]
  · simp only [List.concat_eq_append, List.append_eq_nil_iff, List.cons_ne_nil, and_false, false_or,
      List.dropLast_concat, Nat.zero_add, FitsTag, List.getLast?_concat, Option.some.injEq]
    by_cases hc : isSpecial c = true
    · simp only [escape_snoc_special u hc, List.length_append, List.length_cons, List.length_nil,
        exists_eq_left', hc, and_true]
      omega
    · have hlen : (escape (u ++ [c])).length = (escape u).length + 1 := by
        rw [escape_snoc_plain u hc, List.length_append, List.length_singleton]
      simp only [hlen, exists_eq_left', hc, Bool.false_eq_true, and_false, or_false]
      omega

/-! ## The line -/

/-- The point whose line `build_traffic_point` writes. -/
def trafficPoint (evt : Json) (agentId : Option CStr) (en : Enrichers) : Point where
  measurement := ascii "traffic"
  tags := ((tagSlots evt agentId en).filterMap (TagSlot.tag cString)).map fun t =>
    (t.1, lpTaken maxTagLen t.2)
  fields := eventFields evt en
  timestamp := none

/-- A text that has to fit. -/
def fits (cap : Nat) (s : Bytes) : Option Bytes := if s.length < cap then some s else none

theorem snprintfAt_nil {cap : Nat} {p : Bytes} (hp : p ≠ []) : snprintfAt cap p [] = fits cap p := by
  have := List.length_pos_iff.mpr hp
  unfold snprintfAt fits
  rw [List.length_nil, List.nil_append, Nat.sub_zero]
  split <;> split <;> first | rfl | omega

theorem fits_bind_snprintfAt {cap : Nat} {p : Bytes} (hp : p ≠ []) (s : Bytes) :
    (fits cap s).bind (snprintfAt cap p) = fits cap (s ++ p) := by
  have := List.length_pos_iff.mpr hp
  unfold fits
  rw [List.length_append]
  by_cases h : s.length < cap
  · rw [if_pos h, Option.bind_some, snprintfAt]
    split <;> split <;> first | rfl | omega
  · rw [if_neg h, if_neg (by omega)]
    rfl

theorem fits_bind_snprintfIf {cap : Nat} {p : Bytes} (hp : p ≠ []) (c : Bool) (s : Bytes) :
    (fits cap s).bind (snprintfIf cap c p) = fits cap (s ++ if c then p else []) := by
  cases c with
  | true => exact fits_bind_snprintfAt hp s
  | false =>
    rw [if_neg (by decide), List.append_nil]
    exact Option.bind_fun_some _

theorem fits_bind_snprintfAt_bind {cap : Nat} {p : Bytes} (hp : p ≠ []) (s : Bytes)
    (g : Bytes → Option Bytes) :
    ((fits cap s).bind fun out => (snprintfAt cap p out).bind g) = (fits cap (s ++ p)).bind g := by
  rw [← fits_bind_snprintfAt hp, Option.bind_assoc]

theorem fits_bind_snprintfIf_bind {cap : Nat} {p : Bytes} (hp : p ≠ []) (c : Bool) (s : Bytes)
    (g : Bytes → Option Bytes) :
    ((fits cap s).bind fun out => (snprintfIf cap c p out).bind g) =
      (fits cap (s ++ if c then p else [])).bind g := by
  rw [← fits_bind_snprintfIf hp, Option.bind_assoc]

/-- The text of a pair after its separator. -/
def pairText (sep : UInt8) (x : Bytes × Bytes) : Bytes :=
  sep :: escape x.1 ++ equals :: escape x.2

theorem render_cons (m : Bytes) (tags fs : List (Bytes × Bytes)) (f : Bytes × Bytes) :
    render ⟨m, tags, f :: fs, none⟩ = escape m ++ tags.flatMap (pairText comma) ++
      pairText space f ++ fs.flatMap (pairText comma) ++ [newline] := by
  have hpairs : ∀ xs : List (Bytes × Bytes), (xs.flatMap (pairTokens comma)).flatMap
      (fun t => t.1 :: escape t.2) = xs.flatMap (pairText comma) := by
    intro xs
    rw [List.flatMap_assoc]
    refine List.flatMap_congr fun x _ => ?_
    simp [pairTokens, pairText]
  simp [render, unlex, Point.tokens, List.flatMap_append, hpairs, pairTokens, pairText]

/-- The text of a slot. -/
def TagSlot.text (s : TagSlot) : Bytes :=
  match s.tag cString with
  | some t => pairText comma (t.1, lpTaken maxTagLen t.2)
  | none => []

theorem slots_text (slots : List TagSlot) :
    ((slots.filterMap (TagSlot.tag cString)).map fun t => (t.1, lpTaken maxTagLen t.2)).flatMap
      (pairText comma) = slots.flatMap TagSlot.text := by
  induction slots with
  | nil => rfl
  | cons s slots ih =>
    rw [List.filterMap_cons, List.flatMap_cons, TagSlot.text]
    cases s.tag cString with
    | none => exact ih
    | some t =>
      rw [List.map_cons, List.flatMap_cons, ih]

theorem slot_text_some (k v : Bytes) :
    TagSlot.text ⟨k, some v, false⟩ = comma :: escape k ++ equals :: lpEscape maxTagLen v := by
  simp [TagSlot.text, TagSlot.tag, pairText, lpEscape_eq, lpTaken_cString]

theorem slot_text_none (k : Bytes) (o : Bool) : TagSlot.text ⟨k, none, o⟩ = [] := rfl

theorem slot_text_optional (k : Bytes) (v : Option Bytes) :
    TagSlot.text ⟨k, v, true⟩ = if cString (v.getD []) ≠ [] then
      comma :: escape k ++ equals :: lpEscape maxTagLen (v.getD []) else [] := by
  cases v with
  | none => rfl
  | some v =>
    by_cases hv : cString v = []
    · simp [TagSlot.text, TagSlot.tag, hv]
    · simp [TagSlot.text, TagSlot.tag, pairText, lpEscape_eq, lpTaken_cString, hv]

theorem piece_ne_nil {s x : Bytes} (h : s ≠ []) : s ++ x ≠ [] :=
  List.append_ne_nil_of_left_ne_nil h x

/-- The keys of the fields. -/
def fieldKeys : List Bytes :=
  [ascii "port", ascii "bytes", ascii "is_scan", ascii "kc_score", ascii "lat", ascii "lon",
    ascii "abuse_score"]

/-- A field has a key of the schema and is printed by one of four conversions. -/
theorem eventFields_cases {evt : Json} {en : Enrichers} {f : Bytes × Bytes}
    (hf : f ∈ eventFields evt en) :
    f.1 ∈ fieldKeys ∧ ((∃ n, f.2 = decimalInt n ++ ascii "i") ∨ (∃ n, f.2 = decimalInt n) ∨
      (∃ x, f.2 = formatG 6 x) ∨ ∃ x, f.2 = formatF 6 x) := by
  simp only [eventFields, List.mem_append, List.mem_cons, List.not_mem_nil, or_false] at hf
  rcases hf with ((hf | hf) | hf) | hf
  · rcases hf with rfl | rfl | rfl
    · exact ⟨by simp [fieldKeys], .inl ⟨_, rfl⟩⟩
    · exact ⟨by simp [fieldKeys], .inr (.inr (.inl ⟨_, rfl⟩))⟩
    · exact ⟨by simp [fieldKeys], .inr (.inr (.inl ⟨_, rfl⟩))⟩
  · split at hf
    · rw [List.mem_singleton.mp hf]
      exact ⟨by simp [fieldKeys], .inr (.inr (.inl ⟨_, rfl⟩))⟩
    · cases hf
  · split at hf
    · simp only [List.mem_cons, List.not_mem_nil, or_false] at hf
      rcases hf with rfl | rfl
      · exact ⟨by simp [fieldKeys], .inr (.inr (.inr ⟨_, rfl⟩))⟩
      · exact ⟨by simp [fieldKeys], .inr (.inr (.inr ⟨_, rfl⟩))⟩
    · cases hf
  · split at hf
    · rw [List.mem_singleton.mp hf]
      exact ⟨by simp [fieldKeys], .inr (.inl ⟨_, rfl⟩)⟩
    · cases hf

theorem fieldKeys_plain : ∀ k ∈ fieldKeys, (∀ c ∈ k, isSpecial c = false) ∧ Token k ∧ k ≠ [] := by
  have hall : ∀ k ∈ fieldKeys, k.all (fun c => !isSpecial c) = true ∧ Token k ∧ k ≠ [] := by
    unfold Token
    decide
  intro k hk
  obtain ⟨hplain, htok⟩ := hall k hk
  exact ⟨plain_of_all hplain, htok⟩

theorem eventFields_text {evt : Json} {en : Enrichers} {f : Bytes × Bytes}
    (hf : f ∈ eventFields evt en) : (∀ c ∈ f.2, isSpecial c = false) ∧ Token f.2 := by
  rcases (eventFields_cases hf).2 with ⟨n, h⟩ | ⟨n, h⟩ | ⟨x, h⟩ | ⟨x, h⟩
  · have hn := isNumber_decimalInt_suffix n
    exact h ▸ ⟨isNumber_plain hn, isNumber_token hn⟩
  · have hn := isNumber_decimalInt n
    exact h ▸ ⟨isNumber_plain hn, isNumber_token hn⟩
  · exact h ▸ ⟨formatG_plain 6 x, formatG_token 6 x⟩
  · exact h ▸ ⟨formatF_plain (by decide) x, formatF_token (by decide) x⟩

/-- A field is printed as it is. -/
theorem fieldText_eq {evt : Json} {en : Enrichers} {f : Bytes × Bytes}
    (hf : f ∈ eventFields evt en) (sep : UInt8) : pairText sep f = sep :: f.1 ++ equals :: f.2 := by
  rw [pairText, escape_of_plain (fieldKeys_plain _ (eventFields_cases hf).1).1,
    escape_of_plain (eventFields_text hf).1]

/-- The texts between the values of the fields. -/
theorem field_texts :
    ascii " port=" = space :: ascii "port" ++ [equals] ∧
      ascii "i,bytes=" = ascii "i" ++ comma :: ascii "bytes" ++ [equals] ∧
      ascii ",is_scan=" = comma :: ascii "is_scan" ++ [equals] ∧
      ascii ",kc_score=" = comma :: ascii "kc_score" ++ [equals] ∧
      ascii ",lat=" = comma :: ascii "lat" ++ [equals] ∧
      ascii ",lon=" = comma :: ascii "lon" ++ [equals] ∧
      ascii ",abuse_score=" = comma :: ascii "abuse_score" ++ [equals] ∧
      ascii "\n" = [newline] ∧ escape (ascii "traffic") = ascii "traffic" := by
  decide

/-- The texts between the values of the tags. -/
theorem tag_texts :
    ascii "traffic,agent_id=" = ascii "traffic" ++ comma :: escape (ascii "agent_id") ++ [equals] ∧
      ascii ",src_ip=" = comma :: escape (ascii "src_ip") ++ [equals] ∧
      ascii ",protocol=" = comma :: escape (ascii "protocol") ++ [equals] ∧
      ascii ",attack_type=" = comma :: escape (ascii "attack_type") ++ [equals] ∧
      ascii ",kill_chain_stage=" = comma :: escape (ascii "kill_chain_stage") ++ [equals] ∧
      ascii ",mitre=" = comma :: escape (ascii "mitre") ++ [equals] ∧
      ascii ",ioc_hit=1,ioc_source=" = comma :: escape (ascii "ioc_hit") ++
        equals :: lpEscape maxTagLen (ascii "1") ++ comma :: escape (ascii "ioc_source") ++
        [equals] ∧
      ascii ",asn=" = comma :: escape (ascii "asn") ++ [equals] ∧
      ascii ",asn_org=" = comma :: escape (ascii "asn_org") ++ [equals] := by
  decide

/-- The line as `build_traffic_point` prints it: the tags, the three fields that are always
there, the optional ones. -/
theorem render_trafficPoint (evt : Json) (agentId : Option CStr) (en : Enrichers) :
    render (trafficPoint evt agentId en) = ascii "traffic" ++
      (tagSlots evt agentId en).flatMap TagSlot.text ++
      (ascii " port=" ++ decimalInt ((jsonGetNum evt (ascii "port")).getD .zero).toLongLong ++
        ascii "i,bytes=" ++ formatG 6 ((jsonGetNum evt (ascii "bytes")).getD .zero) ++
        ascii ",is_scan=" ++ formatG 6 ((jsonGetNum evt (ascii "is_scan")).getD .zero)) ++
      (if (jsonGetNum evt (ascii "kc_score")).isSome then
        ascii ",kc_score=" ++ formatG 6 ((jsonGetNum evt (ascii "kc_score")).getD .zero)
        else []) ++
      (if (geoResult en evt).hasGeo then ascii ",lat=" ++ formatF 6 (geoResult en evt).lat ++
        ascii ",lon=" ++ formatF 6 (geoResult en evt).lon else []) ++
      (if (abuseScore en evt).isSome then
        ascii ",abuse_score=" ++ decimalInt ((abuseScore en evt).getD 0) else []) ++
      ascii "\n" := by
  have htext : ∀ f ∈ eventFields evt en, ∀ sep, pairText sep f = sep :: f.1 ++ equals :: f.2 :=
    fun f hf => fieldText_eq hf
  obtain ⟨hport, hbytes, hscan, hkc, hlat, hlon, habuse, hend, htraffic⟩ := field_texts
  rw [trafficPoint]
  unfold eventFields at htext ⊢
  simp only [List.cons_append] at htext ⊢
  rw [render_cons, slots_text, htext _ (by simp), List.flatMap_congr fun f hf =>
    htext f (List.mem_cons_of_mem _ hf) comma, hport, hbytes, hscan, hkc, hlat, hlon, habuse,
    hend, htraffic]
  cases jsonGetNum evt (ascii "kc_score") <;> cases (geoResult en evt).hasGeo <;>
    cases abuseScore en evt <;> simp

/-- `build_traffic_point` writes the line of the event, if it fits. -/
theorem buildTrafficPoint_eq (cap : Nat) (evt : Json) (agentId : Option CStr) (en : Enrichers) :
    buildTrafficPoint cap evt agentId en =
      if cap < 64 then none else fits cap (render (trafficPoint evt agentId en)) := by
  unfold buildTrafficPoint
  refine if_congr Iff.rfl rfl ?_
  dsimp only
  simp only [Option.bind_eq_bind]
  rw [snprintfAt_nil, fits_bind_snprintfIf_bind, fits_bind_snprintfIf_bind,
    fits_bind_snprintfIf_bind, fits_bind_snprintfIf_bind, fits_bind_snprintfIf_bind,
    fits_bind_snprintfIf_bind, fits_bind_snprintfAt_bind, fits_bind_snprintfIf_bind,
    fits_bind_snprintfIf_bind, fits_bind_snprintfIf_bind, fits_bind_snprintfAt]
  rotate_left
  · decide
  all_goals repeat refine piece_ne_nil ?_
  all_goals try decide
  obtain ⟨hagent, hip, hproto, hattack, hstage, hmitre, hioc, hasn, horg⟩ := tag_texts
  rw [render_trafficPoint, tagSlots]
  refine congrArg (fits cap) ?_
  simp only [List.flatMap_cons, List.flatMap_nil, slot_text_some, slot_text_optional]
  rw [hagent, hip, hproto, hattack, hstage, hmitre, hioc, hasn, horg]
  have hview := cString_of_nul (geoResult en evt).asnOrg.2
  have hnil : cString [] = [] := rfl
  cases agentId <;> cases iocSource en evt <;> cases (geoResult en evt).hasAsn <;>
    simp [slot_text_some, slot_text_none, hview, hnil]

end TrafficAnalyzer
