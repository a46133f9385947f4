import Mathlib.Data.List.Nodup
import TrafficAnalyzer.Server.TrafficPoint

/-!
# Which events survive the line protocol

* `buildTrafficPoint_decodes_iff`: a written line decodes to the tags of its event exactly
  when every tag value is free of what the format cannot carry and every float is finite.
* `tags_eq_iff`: the written tags are the original ones exactly when `lp_escape` cuts none.
-/

namespace TrafficAnalyzer

open LineProtocol Printf

/-! ## Tags -/

/-- The keys of the tags. -/
def tagKeys : List Bytes :=
  [ascii "agent_id", ascii "src_ip", ascii "protocol", ascii "attack_type",
    ascii "kill_chain_stage", ascii "mitre", ascii "ioc_hit", ascii "ioc_source", ascii "asn",
    ascii "asn_org"]

theorem tagSlots_keys (evt : Json) (agentId : Option CStr) (en : Enrichers) :
    (tagSlots evt agentId en).map (·.key) = tagKeys := rfl

theorem tagKeys_token : tagKeys.Nodup ∧ ∀ k ∈ tagKeys, Token k ∧ k ≠ [] := by
  unfold Token
  decide

theorem slot_unique {evt : Json} {agentId : Option CStr} {en : Enrichers} {s s' : TagSlot}
    (hs : s ∈ tagSlots evt agentId en) (hs' : s' ∈ tagSlots evt agentId en)
    (hk : s.key = s'.key) : s = s' := by
  have hnodup := tagKeys_token.1
  rw [← tagSlots_keys evt agentId en] at hnodup
  exact List.inj_on_of_nodup_map hnodup hs hs' hk

theorem TagSlot.tag_eq_some {view : Bytes → Bytes} {s : TagSlot} {t : Bytes × Bytes} :
    s.tag view = some t ↔
      ∃ v, s.value = some v ∧ ¬ (s.optional = true ∧ view v = []) ∧ t = (s.key, view v) := by
  simp only [TagSlot.tag, Option.bind_eq_some_iff]
  refine exists_congr fun v => and_congr_right fun _ => ?_
  split
  · next h => exact iff_of_false (by simp) fun h' => h'.1 h
  · next h => exact ⟨fun h' => ⟨h, (Option.some.inj h').symm⟩, fun h' => by rw [h'.2]⟩

theorem mem_eventTags {evt : Json} {agentId : Option CStr} {en : Enrichers} {t : Bytes × Bytes} :
    t ∈ eventTags evt agentId en ↔ ∃ s ∈ tagSlots evt agentId en, s.tag id = some t :=
  List.mem_filterMap

theorem mem_trafficPoint_tags {evt : Json} {agentId : Option CStr} {en : Enrichers}
    {t : Bytes × Bytes} :
    t ∈ (trafficPoint evt agentId en).tags ↔ ∃ s ∈ tagSlots evt agentId en, ∃ x,
      s.tag cString = some x ∧ t = (x.1, lpTaken maxTagLen x.2) := by
  simp only [trafficPoint, List.mem_map, List.mem_filterMap]
  constructor
  · rintro ⟨x, ⟨s, hs, hx⟩, rfl⟩
    exact ⟨s, hs, x, hx, rfl⟩
  · rintro ⟨s, hs, x, hx, rfl⟩
    exact ⟨x, ⟨s, hs, hx⟩, rfl⟩

theorem cString_eq_of_lpTaken {v : Bytes} (h : lpTaken maxTagLen v = v) : cString v = v :=
  cString_of_nul (lpTaken_eq_self.mp h).1

/-- A slot is written with its original value unless `lp_escape` cuts it. -/
theorem TagSlot.tag_cString {s : TagSlot}
    (h : ∀ t, s.tag id = some t → lpTaken maxTagLen t.2 = t.2) : s.tag cString = s.tag id := by
  obtain ⟨key, value, optional⟩ := s
  cases value with
  | none => rfl
  | some v =>
    by_cases hskip : optional = true ∧ v = []
    · simp [TagSlot.tag, hskip, cString]
    · have hv : lpTaken maxTagLen v = v := h (key, v) (by simp [TagSlot.tag, hskip])
      simp [TagSlot.tag, cString_eq_of_lpTaken hv]

/-- The written tags are the original ones exactly when `lp_escape` cuts none of them. -/
theorem tags_eq_iff (evt : Json) (agentId : Option CStr) (en : Enrichers) :
    (∀ t, t ∈ (trafficPoint evt agentId en).tags ↔ t ∈ eventTags evt agentId en) ↔
      ∀ t ∈ eventTags evt agentId en, lpTaken maxTagLen t.2 = t.2 := by
  constructor
  · intro h t ht
    obtain ⟨s, hs, hst⟩ := mem_eventTags.mp ht
    obtain ⟨s', hs', x, hx, htx⟩ := mem_trafficPoint_tags.mp ((h t).mpr ht)
    obtain ⟨v, hv, -, rfl⟩ := TagSlot.tag_eq_some.mp hst
    obtain ⟨v', hv', -, rfl⟩ := TagSlot.tag_eq_some.mp hx
    obtain ⟨hk, hval⟩ := Prod.mk.inj htx
    obtain rfl := slot_unique hs hs' hk
    obtain rfl := Option.some.inj (hv.symm.trans hv')
    rw [lpTaken_cString] at hval
    exact hval.symm
  · intro h t
    rw [mem_trafficPoint_tags, mem_eventTags]
    have hsame : ∀ s ∈ tagSlots evt agentId en, s.tag cString = s.tag id :=
      fun s hs => TagSlot.tag_cString fun t ht => h t (mem_eventTags.mpr ⟨s, hs, ht⟩)
    constructor
    · rintro ⟨s, hs, x, hx, rfl⟩
      rw [hsame s hs] at hx
      rw [h x (mem_eventTags.mpr ⟨s, hs, hx⟩)]
      exact ⟨s, hs, hx⟩
    · rintro ⟨s, hs, ht⟩
      refine ⟨s, hs, t, by rw [hsame s hs, ht], ?_⟩
      rw [h t (mem_eventTags.mpr ⟨s, hs, ht⟩)]

/-! ## Fields -/

/-- The floats that an event prints are finite. -/
def FiniteFields (evt : Json) (en : Enrichers) : Prop :=
  (∀ k ∈ [ascii "bytes", ascii "is_scan", ascii "kc_score"], ∀ x, jsonGetNum evt k = some x →
    x.isFinite = true) ∧
  ((geoResult en evt).hasGeo = true →
    (geoResult en evt).lat.isFinite = true ∧ (geoResult en evt).lon.isFinite = true)

theorem getD_zero_finite {o : Option Binary64} :
    (o.getD .zero).isFinite = true ↔ ∀ x, o = some x → x.isFinite = true := by
  cases o <;> simp [Binary64.zero, Binary64.ofNat, Binary64.isFinite]

theorem eventFields_numbers (evt : Json) (en : Enrichers) :
    (∀ f ∈ eventFields evt en, isNumber f.2 = true) ↔ FiniteFields evt en := by
  have hport : isNumber (decimalInt ((jsonGetNum evt (ascii "port")).getD .zero).toLongLong ++
      ascii "i") = true := isNumber_decimalInt_suffix _
  have hF := @isNumber_formatF 6 (by decide)
  have hbase : (∀ f ∈ [(ascii "port", decimalInt ((jsonGetNum evt (ascii "port")).getD
        .zero).toLongLong ++ ascii "i"), (ascii "bytes", formatG 6 ((jsonGetNum evt
        (ascii "bytes")).getD .zero)), (ascii "is_scan", formatG 6 ((jsonGetNum evt
        (ascii "is_scan")).getD .zero))], isNumber f.2 = true) ↔
      (∀ x, jsonGetNum evt (ascii "bytes") = some x → x.isFinite = true) ∧
        ∀ x, jsonGetNum evt (ascii "is_scan") = some x → x.isFinite = true := by
    rw [← getD_zero_finite, ← getD_zero_finite]
    simpa [isNumber_formatG] using fun _ _ => hport
  have hgeo : (∀ f ∈ (if (geoResult en evt).hasGeo then
        [(ascii "lat", formatF 6 (geoResult en evt).lat),
          (ascii "lon", formatF 6 (geoResult en evt).lon)] else []), isNumber f.2 = true) ↔
      ((geoResult en evt).hasGeo = true →
        (geoResult en evt).lat.isFinite = true ∧ (geoResult en evt).lon.isFinite = true) := by
    cases (geoResult en evt).hasGeo <;> simp [hF]
  rw [eventFields, List.forall_mem_append, List.forall_mem_append, List.forall_mem_append, hbase,
    hgeo, FiniteFields]
  cases hkc : jsonGetNum evt (ascii "kc_score") <;> cases abuseScore en evt <;>
    simp [hkc, and_assoc, and_left_comm, isNumber_formatG, isNumber_decimalInt]

/-! ## The line of an event -/

theorem trafficPoint_shaped (evt : Json) (agentId : Option CStr) (en : Enrichers) :
    (trafficPoint evt agentId en).Shaped := by
  refine ⟨?_, ?_, ?_, ?_, ?_⟩
  · change Token (ascii "traffic") ∧ ascii "traffic" ≠ []
    unfold Token
    decide
  · intro t ht
    obtain ⟨s, hs, x, hx, rfl⟩ := mem_trafficPoint_tags.mp ht
    obtain ⟨v, -, -, rfl⟩ := TagSlot.tag_eq_some.mp hx
    refine tagKeys_token.2 s.key ?_
    rw [← tagSlots_keys evt agentId en]
    exact List.mem_map_of_mem hs
  · intro f hf
    exact ⟨(fieldKeys_plain _ (eventFields_cases hf).1).2, (eventFields_text hf).2⟩
  · exact List.cons_ne_nil _ _
  · rintro t ⟨⟩

/-- The text is one line that decodes to a traffic point with the given tags. -/
def DecodesTo (text : Bytes) (tags : List (Bytes × Bytes)) : Prop :=
  text.count newline = 1 ∧ text.getLast? = some newline ∧
    ∃ p, parse text = some p ∧ p.measurement = ascii "traffic" ∧ ∀ t, t ∈ p.tags ↔ t ∈ tags

/-- What a tag value must be to survive; the last point is about values that the escaped
text fits exactly, which `lp_escape` cuts by one byte. -/
def ValueSafe (v : Bytes) : Prop :=
  v ≠ [] ∧ (0 : UInt8) ∉ v ∧ newline ∉ v ∧ v.getLast? ≠ some backslash ∧
    ¬ ((escape v).length = 127 ∧ ∀ c, v.getLast? = some c → isSpecial c = false)

theorem render_newline {p : Point} (h : p.WellFormed) :
    (render p).count newline = 1 ∧ (render p).getLast? = some newline := by
  have hnot : newline ∉ (render p).dropLast := fun hn => by
    obtain ⟨v, hv, hvn⟩ := (newline_unlex p.separators).mp hn
    exact (h.tokens_token v hv).1 hvn
  have hlast : (render p).getLast? = some newline := by simp [render, unlex]
  refine ⟨?_, hlast⟩
  obtain ⟨s, hs⟩ := List.getLast?_eq_some_iff.mp hlast
  rw [hs, List.dropLast_concat] at hnot
  rw [hs, List.count_append, List.count_eq_zero_of_not_mem hnot]
  simp

theorem decodes_iff (evt : Json) (agentId : Option CStr) (en : Enrichers)
    (tags : List (Bytes × Bytes)) :
    DecodesTo (render (trafficPoint evt agentId en)) tags ↔
      (trafficPoint evt agentId en).WellFormed ∧
        ∀ t, t ∈ (trafficPoint evt agentId en).tags ↔ t ∈ tags := by
  constructor
  · rintro ⟨-, -, p, hp, -, htags⟩
    obtain ⟨hw, rfl⟩ := (parse_render_eq_some (trafficPoint_shaped evt agentId en)).mp hp
    exact ⟨hw, htags⟩
  · rintro ⟨hw, htags⟩
    exact ⟨(render_newline hw).1, (render_newline hw).2, _, parse_render hw, rfl, htags⟩

theorem valueSafe_iff {v : Bytes} (hfit : (escape v).length + 1 ≤ maxTagLen) :
    ValueSafe v ↔ (Token v ∧ v ≠ []) ∧ lpTaken maxTagLen v = v := by
  have hcut : FitsTag v ↔
      ¬ ((escape v).length = 127 ∧ ∀ c, v.getLast? = some c → isSpecial c = false) := by
    have hle : (escape v).length ≤ 127 := Nat.le_of_succ_le_succ hfit
    simp only [FitsTag, not_and, not_forall, Bool.not_eq_false]
    constructor
    · rintro (h | ⟨-, c, hc, hs⟩) hlen
      · omega
      · exact ⟨c, hc, hs⟩
    · intro h
      rcases Nat.lt_or_ge (escape v).length 127 with hlt | hge
      · exact .inl (Nat.le_of_lt_succ hlt)
      · have hlen := Nat.le_antisymm hle hge
        obtain ⟨c, hc, hs⟩ := h hlen
        exact .inr ⟨hlen, c, hc, hs⟩
  rw [lpTaken_eq_self, hcut, ValueSafe, Token]
  tauto

/-- A written line decodes to the tags of its event exactly when each value is safe and each
float is finite. -/
theorem buildTrafficPoint_decodes_iff {cap : Nat} {evt : Json} {agentId : Option CStr}
    {en : Enrichers} {text : Bytes} (hline : buildTrafficPoint cap evt agentId en = some text)
    (hfit : ∀ t ∈ eventTags evt agentId en, (escape t.2).length + 1 ≤ maxTagLen) :
    DecodesTo text (eventTags evt agentId en) ↔
      (∀ t ∈ eventTags evt agentId en, ValueSafe t.2) ∧ FiniteFields evt en := by
  have htext : text = render (trafficPoint evt agentId en) := by
    rw [buildTrafficPoint_eq] at hline
    split at hline
    · cases hline
    · unfold fits at hline
      split at hline <;> cases hline
      rfl
  rw [htext, decodes_iff, (trafficPoint_shaped evt agentId en).wellFormed_iff]
  constructor
  · rintro ⟨⟨hvalues, hfields⟩, hsame⟩
    refine ⟨fun t ht => (valueSafe_iff (hfit t ht)).mpr ⟨?_, ?_⟩,
      (eventFields_numbers evt en).mp hfields⟩
    · exact hvalues t ((hsame t).mpr ht)
    · exact (tags_eq_iff evt agentId en).mp hsame t ht
  · rintro ⟨hsafe, hfields⟩
    have hvalue := fun t ht => (valueSafe_iff (hfit t ht)).mp (hsafe t ht)
    have hsame := (tags_eq_iff evt agentId en).mpr fun t ht => (hvalue t ht).2
    exact ⟨⟨fun t ht => (hvalue t ((hsame t).mp ht)).1, (eventFields_numbers evt en).mpr hfields⟩,
      hsame⟩

/-- An event as the agent sends it, but with a protocol of the sender's choice. -/
def eventOf (proto : Bytes) : Json :=
  .object [(ascii "src_ip", .string (ascii "198.51.100.7")), (ascii "proto", .string proto),
    (ascii "port", .number (.ofNat 80)), (ascii "bytes", .number (.ofNat 60))]

def agent1 : CStr := ⟨ascii "agent-1", by decide⟩

/-- No enricher is configured. -/
def noEnrichers : Enrichers := ⟨none, none, none⟩

/-- The line of an event with the protocol TCP. -/
def tcpLine : Bytes :=
  ascii "traffic,agent_id=agent-1,src_ip=198.51.100.7,protocol=TCP" ++
    ascii " port=80i,bytes=60,is_scan=0\n"

theorem tcpLine_eq : buildTrafficPoint 16384 (eventOf (ascii "TCP")) (some agent1) noEnrichers =
    some tcpLine := by
  decide +kernel

theorem buildTrafficPoint_decodes_tcp :
    DecodesTo tcpLine (eventTags (eventOf (ascii "TCP")) (some agent1) noEnrichers) ↔
      (∀ t ∈ eventTags (eventOf (ascii "TCP")) (some agent1) noEnrichers, ValueSafe t.2) ∧
        FiniteFields (eventOf (ascii "TCP")) noEnrichers :=
  buildTrafficPoint_decodes_iff tcpLine_eq (by decide +kernel)

/-- A newline in the protocol ends the line and begins another one of the sender's choice. -/
theorem newline_forges_line :
    ∃ text, buildTrafficPoint 16384 (eventOf (ascii "TCP\nforged")) (some agent1) noEnrichers =
        some text ∧
      (∀ t ∈ eventTags (eventOf (ascii "TCP\nforged")) (some agent1) noEnrichers,
        (escape t.2).length + 1 ≤ maxTagLen) ∧
      ¬ DecodesTo text (eventTags (eventOf (ascii "TCP\nforged")) (some agent1) noEnrichers) := by
  refine ⟨ascii "traffic,agent_id=agent-1,src_ip=198.51.100.7,protocol=TCP\nforged" ++
    ascii " port=80i,bytes=60,is_scan=0\n", by decide +kernel, by decide +kernel, ?_⟩
  rintro ⟨hcount, -⟩
  exact absurd hcount (by decide +kernel)

end TrafficAnalyzer
