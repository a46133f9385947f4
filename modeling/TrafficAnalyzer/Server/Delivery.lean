import Mathlib.Data.Bool.AllAny
import TrafficAnalyzer.Agent.Batch
import TrafficAnalyzer.Server.Consumer
import TrafficAnalyzer.Server.Influx

/-!
# From the analyzer to the database

An event goes from the analyzer through the pipeline, a JSON text, the broker, the JSON parser
and the line protocol. `Event.point` says what has to arrive.

* `trafficPoint_event`: what `build_traffic_point` makes of the object of an event.
* `run_delivers`: every batch that a run of the agent sends arrives as the points of its
  events, in order.
-/

namespace TrafficAnalyzer

open CText Printf LineProtocol
open Cjson hiding render

/-! ## What has to arrive -/

/-- The point of an event. -/
def Event.point (agentId : CStr) (e : Event) : Point where
  measurement := ascii "traffic"
  tags :=
    [(ascii "agent_id", agentId.1), (ascii "src_ip", ascii e.srcIp),
      (ascii "protocol", ascii e.proto), (ascii "attack_type", ascii (safeAttack e.attackType)),
      (ascii "kill_chain_stage", ascii (kcStageName e.killChainStage))] ++
    (if e.mitre = "" then [] else [(ascii "mitre", ascii e.mitre)])
  fields :=
    [(ascii "port", decimalInt e.port ++ ascii "i"), (ascii "bytes", decimalInt e.bytes),
      (ascii "is_scan", decimalInt (if e.isScan then 1 else 0)),
      (ascii "kc_score", decimalInt e.kcScore)]
  timestamp := none

/-- The agents whose identity survives the line protocol. -/
structure AgentName (agentId : CStr) : Prop where
  token : Token agentId.1
  ne : agentId.1 ≠ []
  short : (escape agentId.1).length ≤ 126

/-! ## The texts of an event -/

/-- A text that a JSON string and a tag carry as it is. -/
structure PlainText (n : Nat) (s : Bytes) : Prop where
  ne : s ≠ []
  visible : ∀ c ∈ s, 32 < c ∧ c ≠ backslash
  short : (escape s).length ≤ n

section Texts

variable {n : Nat} {s : Bytes}

theorem PlainText.nul (h : PlainText n s) : (0 : UInt8) ∉ s := fun h0 =>
  absurd (h.visible 0 h0).1 (by decide)

theorem PlainText.token (h : PlainText n s) : Token s :=
  ⟨fun hn => absurd (h.visible newline hn).1 (by decide),
    fun hb => (h.visible backslash (List.mem_of_getLast? hb)).2 rfl⟩

theorem taken_short (h0 : (0 : UInt8) ∉ s) (h : (escape s).length ≤ 126) :
    lpTaken maxTagLen s = s :=
  lpTaken_eq_self.mpr ⟨h0, .inl h⟩

theorem length_le_escape (s : Bytes) : s.length ≤ (escape s).length := by
  induction s with
  | nil => exact Nat.le_refl 0
  | cons c s ih =>
    rw [escape]
    split
    · exact Nat.succ_le_succ (ih.trans (Nat.le_succ _))
    · exact Nat.succ_le_succ ih

theorem octet_digits {n : Nat} (h : n < 256) : ∀ c ∈ ascii (toString n), 48 ≤ c ∧ c ≤ 57 := by
  have hall : ∀ n < 256, ((ascii (toString n)).all fun c => decide (48 ≤ c ∧ c ≤ 57)) = true := by
    decide +kernel
  exact List.all_iff_forall_prop.mp (hall n h)

theorem inetNtoa_bytes (ip : UInt32) : ∀ c ∈ ascii (inetNtoa ip), c = 46 ∨ 48 ≤ c ∧ c ≤ 57 := by
  have hdot : ∀ c ∈ ascii ".", c = 46 := List.all_iff_forall_prop.mp (by decide +kernel)
  intro c hc
  simp only [inetNtoa, ascii_append, List.mem_append] at hc
  rcases hc with (((((hc | hc) | hc) | hc) | hc) | hc) | hc
  · exact .inr (octet_digits (octet_lt ip) c hc)
  · exact .inl (hdot c hc)
  · exact .inr (octet_digits (octet_lt (ip >>> 8)) c hc)
  · exact .inl (hdot c hc)
  · exact .inr (octet_digits (octet_lt (ip >>> 16)) c hc)
  · exact .inl (hdot c hc)
  · exact .inr (octet_digits (octet_lt (ip >>> 24)) c hc)

theorem inetNtoa_plain (ip : UInt32) : PlainText 15 (ascii (inetNtoa ip)) := by
  have hbytes := inetNtoa_bytes ip
  have hplain : ∀ c ∈ ascii (inetNtoa ip), isSpecial c = false := by
    intro c hc
    rw [isSpecial, decide_eq_false_iff_not]
    rcases hbytes c hc with rfl | ⟨hlow, hhigh⟩
    · decide
    · rintro (rfl | rfl | rfl)
      · exact absurd hlow (by decide)
      · exact absurd hhigh (by decide)
      · exact absurd hlow (by decide)
  refine ⟨?_, ?_, ?_⟩
  · -- there is a dot at least
    intro hnil
    have hlen := congrArg List.length hnil
    simp only [inetNtoa, ascii_append, List.length_append] at hlen
    exact absurd hlen (Nat.ne_of_gt (by simp [ascii]))
  · intro c hc
    rcases hbytes c hc with rfl | ⟨hlow, hhigh⟩
    · decide
    · refine ⟨UInt8.lt_of_lt_of_le (by decide) hlow, ?_⟩
      rintro rfl
      exact absurd hhigh (by decide)
  · rw [escape_of_plain hplain]
    exact (inetNtoa_short ip).2

instance (n : Nat) (s : Bytes) : Decidable (PlainText n s) :=
  decidable_of_iff
    (s ≠ [] ∧ (s.all fun c => decide (32 < c ∧ c ≠ backslash)) = true ∧ (escape s).length ≤ n)
    ⟨fun h => ⟨h.1, List.all_iff_forall_prop.mp h.2.1, h.2.2⟩,
      fun h => ⟨h.ne, List.all_iff_forall_prop.mpr h.visible, h.short⟩⟩

theorem proto_plain : ∀ proto ∈ ["ARP", "ICMP", "TCP", "UDP"], PlainText 4 (ascii proto) := by
  decide +kernel

theorem safeAttack_plain (attackType : Option Attack) :
    PlainText 14 (ascii (safeAttack attackType)) := by
  cases attackType with
  | none => decide +kernel
  | some a => cases a <;> decide +kernel

theorem stage_plain (stage : KillChainStage) : PlainText 8 (ascii (kcStageName stage)) := by
  cases stage <;> decide +kernel

theorem mitre_plain (attackType : Option Attack) (h : attackToMitre attackType ≠ "") :
    PlainText 16 (ascii (attackToMitre attackType)) := by
  cases attackType with
  | none => exact absurd rfl h
  | some a => cases a <;> decide +kernel

end Texts

/-! ## The point of an event -/

/-- The texts of an event. -/
structure Event.Texts (e : Event) : Prop where
  srcIp : PlainText 15 (ascii e.srcIp)
  proto : PlainText 4 (ascii e.proto)
  attack : PlainText 14 (ascii (safeAttack e.attackType))
  stage : PlainText 8 (ascii (kcStageName e.killChainStage))
  mitre : e.mitre ≠ "" → PlainText 16 (ascii e.mitre)

theorem Event.Standard.texts {e : Event} (h : e.Standard) : e.Texts := by
  obtain ⟨ip, hip⟩ := h.srcIp
  refine ⟨hip ▸ inetNtoa_plain ip, proto_plain _ h.proto, safeAttack_plain _, stage_plain _, ?_⟩
  rw [h.mitre]
  exact mitre_plain e.attackType

theorem json_numbers (e : EventSlot) :
    jsonGetNum e.json (ascii "port") = some (.ofInt e.port) ∧
      jsonGetNum e.json (ascii "bytes") = some (.ofInt e.bytes) ∧
      jsonGetNum e.json (ascii "is_scan") = some (.ofInt (if e.isScan then 1 else 0)) ∧
      jsonGetNum e.json (ascii "kc_score") = some (.ofInt e.kcScore) :=
  ⟨rfl, rfl, rfl, rfl⟩

section Points

variable {agentId : CStr} {e : Event}

theorem eventFields_event (agentId : CStr) (h : e.Sendable) :
    eventFields e.slot.json noEnrichers = (e.point agentId).fields := by
  obtain ⟨hport, hbytes, hscan, hkc⟩ := json_numbers e.slot
  have hportVal : (Binary64.ofInt e.slot.port).toLongLong = e.port :=
    toLongLong_ofInt (by have := h.port; simp only [Event.slot, Int.natAbs_natCast]; omega)
  have hdigits : ∀ n : Int, n.natAbs < 10 ^ 6 → formatG 6 (.ofInt n) = decimalInt n := fun n hn =>
    formatG_ofInt (by decide) hn (hn.trans (by decide))
  have hbytesVal : formatG 6 (.ofInt e.slot.bytes) = decimalInt e.bytes :=
    hdigits _ (Nat.lt_of_le_of_lt h.bytes (by decide))
  have hscanVal : formatG 6 (.ofInt (if e.slot.isScan then 1 else 0)) =
      decimalInt (if e.isScan then 1 else 0) :=
    hdigits _ ((by decide : ∀ b : Bool, (if b then (1 : Int) else 0).natAbs < 10 ^ 6) e.isScan)
  have hkcVal : formatG 6 (.ofInt e.slot.kcScore) = decimalInt e.kcScore :=
    hdigits _ (by have := h.score; simp only [Event.slot]; omega)
  have hgeo : (geoResult noEnrichers e.slot.json).hasGeo = false := rfl
  have habuse : abuseScore noEnrichers e.slot.json = none := rfl
  rw [eventFields, hport, hbytes, hscan, hkc, hgeo, habuse]
  simp only [Option.getD_some, hportVal, hbytesVal, hscanVal, hkcVal, Event.point]
  rfl

/-- The tags without a value are left out. -/
theorem tagSlots_event (e : EventSlot) :
    tagSlots e.json (some agentId) noEnrichers =
      [⟨ascii "agent_id", some agentId.1, false⟩, ⟨ascii "src_ip", some (cString e.srcIp), false⟩,
        ⟨ascii "protocol", some (cString e.proto), false⟩,
        ⟨ascii "attack_type", some (cString e.attackType), true⟩,
        ⟨ascii "kill_chain_stage", some (cString e.killChainStage), true⟩,
        ⟨ascii "mitre", some (cString e.mitre), true⟩, ⟨ascii "ioc_hit", none, false⟩,
        ⟨ascii "ioc_source", none, false⟩, ⟨ascii "asn", none, false⟩,
        ⟨ascii "asn_org", none, true⟩] := rfl

/-- A tag as `build_traffic_point` writes it. -/
theorem tag_written {k v : Bytes} {o : Bool} (h0 : (0 : UInt8) ∉ v) (hne : v ≠ [])
    (hshort : (escape v).length ≤ 126) :
    ((TagSlot.mk k (some (cString v)) o).tag cString).map (fun t => (t.1, lpTaken maxTagLen t.2)) =
      some (k, v) := by
  have hv := cString_of_nul h0
  rw [TagSlot.tag, hv, Option.bind_some, hv, if_neg fun h => hne h.2, Option.map_some,
    taken_short h0 hshort]

theorem PlainText.written {n : Nat} {k v : Bytes} {o : Bool} (h : PlainText n v) (hn : n ≤ 126) :
    ((TagSlot.mk k (some (cString v)) o).tag cString).map (fun t => (t.1, lpTaken maxTagLen t.2)) =
      some (k, v) := tag_written h.nul h.ne (h.short.trans hn)

theorem trafficPoint_tags (h : e.Texts) (hagent : AgentName agentId) :
    (trafficPoint e.slot.json (some agentId) noEnrichers).tags = (e.point agentId).tags := by
  have hself : cString agentId.1 = agentId.1 := cString_of_nul agentId.2
  have hwritten : (TagSlot.mk (ascii "agent_id") (some (cString agentId.1)) false |>.tag cString).map
      (fun t => (t.1, lpTaken maxTagLen t.2)) = some (ascii "agent_id", agentId.1) :=
    tag_written agentId.2 hagent.ne hagent.short
  have hmitre : ((TagSlot.mk (ascii "mitre") (some (cString (ascii e.mitre))) true).tag cString).map
      (fun t => (t.1, lpTaken maxTagLen t.2)) =
      if e.mitre = "" then none else some (ascii "mitre", ascii e.mitre) := by
    by_cases hnil : e.mitre = ""
    · rw [if_pos hnil, hnil]
      rfl
    · rw [if_neg hnil]
      exact (h.mitre hnil).written (by decide)
  rw [trafficPoint, List.map_filterMap, tagSlots_event, Event.point]
  rw [hself] at hwritten
  simp only [List.filterMap_cons, hwritten, hmitre, h.srcIp.written (by decide : 15 ≤ 126),
    h.proto.written (by decide : 4 ≤ 126), h.attack.written (by decide : 14 ≤ 126),
    h.stage.written (by decide : 8 ≤ 126), Event.slot]
  by_cases hnil : e.mitre = ""
  · rw [if_pos hnil, if_pos hnil]
    rfl
  · rw [if_neg hnil, if_neg hnil]
    rfl

/-- The server makes of a sent event the point of the event. -/
theorem trafficPoint_event (h : e.Sendable) (hagent : AgentName agentId) :
    trafficPoint e.slot.json (some agentId) noEnrichers = e.point agentId := by
  have htags := trafficPoint_tags h.standard.texts hagent
  have hfields := eventFields_event agentId h
  rw [trafficPoint] at htags ⊢
  rw [hfields]
  dsimp only at htags
  rw [htags]
  rfl

/-! ## The line of an event -/

theorem point_wellFormed (h : e.Sendable) (hagent : AgentName agentId) :
    (e.point agentId).WellFormed := by
  obtain ⟨hip, hproto, hattack, hstage, hmitre⟩ := h.standard.texts
  have hnumbers : ∀ f ∈ (e.point agentId).fields, isNumber f.2 = true := by
    intro f hf
    simp only [Event.point, List.mem_cons, List.not_mem_nil, or_false] at hf
    rcases hf with rfl | rfl | rfl | rfl
    · exact isNumber_decimalInt_suffix _
    · exact isNumber_decimalInt e.bytes
    · exact isNumber_decimalInt _
    · exact isNumber_decimalInt e.kcScore
  have hvalues : ∀ t ∈ (e.point agentId).tags, Token t.2 ∧ t.2 ≠ [] := by
    intro t ht
    simp only [Event.point, List.mem_append, List.mem_cons, List.not_mem_nil, or_false] at ht
    rcases ht with (rfl | rfl | rfl | rfl | rfl) | ht
    · exact ⟨hagent.token, hagent.ne⟩
    · exact ⟨hip.token, hip.ne⟩
    · exact ⟨hproto.token, hproto.ne⟩
    · exact ⟨hattack.token, hattack.ne⟩
    · exact ⟨hstage.token, hstage.ne⟩
    · split at ht
      · cases ht
      · next hnil =>
        rw [List.mem_singleton.mp ht]
        exact ⟨(hmitre hnil).token, (hmitre hnil).ne⟩
  have hshaped := trafficPoint_shaped e.slot.json (some agentId) noEnrichers
  rw [trafficPoint_event h hagent] at hshaped
  exact hshaped.wellFormed_iff.mpr ⟨hvalues, hnumbers⟩

theorem length_decimalInt_le {k : Nat} {x : Int} (hk : 0 < k) (h0 : 0 ≤ x) (h : x < 10 ^ k) :
    (escape (decimalInt x)).length ≤ k := by
  obtain ⟨n, rfl⟩ := Int.eq_ofNat_of_zero_le h0
  rw [escape_of_plain (isNumber_plain (isNumber_decimalInt _)), decimalInt,
    decide_eq_false (not_lt.mpr h0), Int.natAbs_natCast]
  exact length_decimal_le hk (by exact_mod_cast h)

theorem length_pairText (sep : UInt8) (x : Bytes × Bytes) :
    (pairText sep x).length = (escape x.1).length + (escape x.2).length + 2 := by
  simp only [pairText, List.length_append, List.length_cons]
  omega

/-- Without its agent a line has at most 177 bytes. -/
theorem length_point_le (h : e.Sendable) :
    (render (e.point agentId)).length ≤ 177 + (escape agentId.1).length := by
  obtain ⟨hip, hproto, hattack, hstage, hmitre⟩ := h.standard.texts
  have hport : (escape (decimalInt e.port ++ ascii "i")).length ≤ 6 := by
    have hlt : (e.port : Int) < 10 ^ 5 := by exact_mod_cast h.port.trans (by decide)
    have hdigits := length_decimalInt_le (k := 5) (by decide) (Int.natCast_nonneg _) hlt
    rw [escape_append, List.length_append]
    exact Nat.add_le_add hdigits (by decide : (escape (ascii "i")).length ≤ 1)
  have hbytes : (escape (decimalInt e.bytes)).length ≤ 4 := by
    have hlt : (e.bytes : Int) < 10 ^ 4 := by exact_mod_cast Nat.lt_of_le_of_lt h.bytes (by decide)
    exact length_decimalInt_le (by decide) (Int.natCast_nonneg _) hlt
  have hscan : (escape (decimalInt (if e.isScan then 1 else 0))).length ≤ 1 :=
    (by decide : ∀ b : Bool, (escape (decimalInt (if b then 1 else 0))).length ≤ 1) e.isScan
  have hkc : (escape (decimalInt e.kcScore)).length ≤ 3 :=
    length_decimalInt_le (by decide) h.score.1 (Int.lt_of_le_of_lt h.score.2 (by decide))
  have hoptional : ((if e.mitre = "" then [] else [(ascii "mitre", ascii e.mitre)]).flatMap
      (pairText comma)).length ≤ 23 := by
    split
    · exact Nat.zero_le _
    · next hnil =>
      have hshort := (hmitre hnil).short
      have hkey : (escape (ascii "mitre")).length = 5 := by decide
      rw [List.flatMap_singleton, length_pairText]
      dsimp only
      omega
  have hkeys : (escape (ascii "traffic")).length = 7 ∧ (escape (ascii "agent_id")).length = 8 ∧
      (escape (ascii "src_ip")).length = 6 ∧ (escape (ascii "protocol")).length = 8 ∧
      (escape (ascii "attack_type")).length = 11 ∧
      (escape (ascii "kill_chain_stage")).length = 16 ∧ (escape (ascii "port")).length = 4 ∧
      (escape (ascii "bytes")).length = 5 ∧ (escape (ascii "is_scan")).length = 7 ∧
      (escape (ascii "kc_score")).length = 8 := by decide
  rw [Event.point, render_cons]
  generalize (if e.mitre = "" then [] else [(ascii "mitre", ascii e.mitre)]) = optional
    at hoptional ⊢
  have hips := hip.short
  have hprotos := hproto.short
  have hattacks := hattack.short
  have hstages := hstage.short
  simp only [List.flatMap_append, List.flatMap_cons, List.flatMap_nil, List.length_append,
    length_pairText, List.length_cons, List.length_nil, hkeys] at hoptional ⊢
  omega

end Points

/-! ## Batches -/

variable {agentId : CStr}

theorem slot_ints {e : Event} (h : e.Sendable) : e.slot.Ints := by
  have hport : (e.port : Int) < 2 ^ 16 := by exact_mod_cast h.port
  have hbytes : (e.bytes : Int) ≤ 1518 := by exact_mod_cast h.bytes
  refine ⟨hport.le.trans (by decide), hbytes.trans (by decide), ?_, ?_⟩
  · exact (by decide : INT_MIN ≤ 0).trans h.score.1
  · exact h.score.2.trans (by decide)

theorem slot_rooms {e : Event} (h : e.Standard) : e.slot.Rooms := by
  obtain ⟨hip, hproto, hattack, hstage, hmitre⟩ := h.texts
  have hroom : ∀ {n m : Nat} {s : Bytes}, PlainText n s → n ≤ m → s.length ≤ m :=
    fun hs hnm => ((length_le_escape _).trans hs.short).trans hnm
  refine ⟨hroom hip (by decide), hroom hproto (by decide), hroom hattack (by decide),
    hroom hstage (by decide), ?_⟩
  by_cases hnil : e.mitre = ""
  · rw [Event.slot, hnil]
    exact Nat.zero_le _
  · exact hroom (hmitre hnil) (by decide)

/-- The lines of a batch. -/
theorem eventLines_event {batch : List Event} (h : ∀ e ∈ batch, e.Sendable)
    (hagent : AgentName agentId) :
    eventLines (some agentId)
        (payloadItems (fun _ => noEnrichers) (batchJson (batch.map Event.slot))) =
      batch.map fun e => render (e.point agentId) := by
  have hitems : payloadItems (fun _ => noEnrichers) (batchJson (batch.map Event.slot)) =
      batch.map fun e => (e.slot.json, noEnrichers) := by
    rw [batchJson, payloadItems, List.mapIdx_eq_iff]
    intro i
    simp only [List.getElem?_map, Option.map_map]
    rfl
  rw [hitems, eventLines, List.filter_eq_self.mpr, List.map_map]
  · refine List.map_congr_left fun e he => ?_
    rw [Function.comp_apply, trafficPoint_event (h e he) hagent]
  · intro x hx
    obtain ⟨e, -, rfl⟩ := List.mem_map.mp hx
    rfl

theorem length_flatten_map_le {α : Type} {f : α → Bytes} {k : Nat} {xs : List α}
    (h : ∀ x ∈ xs, (f x).length ≤ k) : (xs.map f).flatten.length ≤ xs.length * k := by
  induction xs with
  | nil => exact Nat.zero_le _
  | cons x xs ih =>
    obtain ⟨hx, hxs⟩ := List.forall_mem_cons.mp h
    rw [List.map_cons, List.flatten_cons, List.length_append, List.length_cons, Nat.succ_mul]
    exact (Nat.add_le_add hx (ih hxs)).trans_eq (Nat.add_comm _ _)

/-- The lines of 53 events fit the buffer. -/
theorem batch_fits {batch : List Event} (h : ∀ e ∈ batch, e.Sendable) (hagent : AgentName agentId)
    (hlen : batch.length ≤ 53) : FitsBuffer (batch.map fun e => render (e.point agentId)) := by
  have hline : ∀ e ∈ batch, (render (e.point agentId)).length ≤ 303 := fun e he =>
    (length_point_le (h e he)).trans (Nat.add_le_add_left hagent.short 177)
  have hall := length_flatten_map_le hline
  have hinit : (batch.map fun e => render (e.point agentId)).dropLast.flatten.length ≤
      (batch.map fun e => render (e.point agentId)).flatten.length :=
    length_flatten_le (List.dropLast_sublist _)
  unfold FitsBuffer lpBufSize
  omega

/-- The lines are read as the points. -/
theorem lines_parse {batch : List Event} (h : ∀ e ∈ batch, e.Sendable)
    (hagent : AgentName agentId) :
    (batch.map fun e => render (e.point agentId)).mapM parse =
      some (batch.map (Event.point agentId)) := by
  induction batch with
  | nil => rfl
  | cons e batch ih =>
    obtain ⟨he, hbatch⟩ := List.forall_mem_cons.mp h
    rw [List.map_cons, List.mapM_cons, parse_render (point_wellFormed he hagent), ih hbatch]
    rfl

/-- The parser that `nta_influx_write_traffic` calls; it has no fault. -/
def parseBody (body : Bytes) : Option Json := (cJSONParseWithLength body).join

/-- What the server is told of a batch. -/
structure Delivered (agentId : CStr) (batch : List Event) : Prop where
  sent : publisherSendBatch true (fun _ => true) (batch.map Event.slot) =
    some (0, some (messageText (batch.map Event.slot)))
  handled : ∀ buf, (receive buf ⟨agentProperties agentId, messageText (batch.map Event.slot)⟩).2 =
    ⟨messageText (batch.map Event.slot), agentId⟩
  posted : ∀ post : Bytes → Int, ntaInfluxWriteTraffic true parseBody post (fun _ => noEnrichers)
      (some (messageText (batch.map Event.slot))) (some agentId) =
    (post (batch.map fun e => render (e.point agentId)).flatten,
      some (batch.map fun e => render (e.point agentId)).flatten)
  read : (batch.map fun e => render (e.point agentId)).mapM parse =
    some (batch.map (Event.point agentId))

theorem batch_sends {batch : List Event} (hne : batch ≠ []) (h : ∀ e ∈ batch, e.Sendable)
    (hlen : batch.length ≤ 53) :
    publisherSendBatch true (fun _ => true) (batch.map Event.slot) =
      some (0, some (messageText (batch.map Event.slot))) := by
  have hslots : batch.map Event.slot ≠ [] := fun hnil => hne (List.map_eq_nil_iff.mp hnil)
  have hrooms : ∀ e ∈ batch.map Event.slot, e.Rooms := List.forall_mem_map.mpr fun e he =>
    slot_rooms (h e he).standard
  exact @sendBatch_sends (fun _ => true) _ hslots hrooms
    (by rw [List.length_map]; exact hlen.trans (by decide))

/-- The server parses a batch as the agent has built it. -/
theorem parseBody_batch {batch : List Event} (hne : batch ≠ []) (h : ∀ e ∈ batch, e.Sendable)
    (hlen : batch.length ≤ 53) :
    parseBody (messageText (batch.map Event.slot)) = some (batchJson (batch.map Event.slot)) := by
  have hints : ∀ e ∈ batch.map Event.slot, e.Ints := List.forall_mem_map.mpr fun e he =>
    slot_ints (h e he)
  rw [parseBody, sendBatch_parses hints (batch_sends hne h hlen)]
  rfl

theorem batch_delivered {batch : List Event} (hne : batch ≠ []) (h : ∀ e ∈ batch, e.Sendable)
    (hagent : AgentName agentId) (hlen : batch.length ≤ 53) : Delivered agentId batch := by
  have hsent := batch_sends hne h hlen
  have hparse := parseBody_batch hne h hlen
  have hbody : messageText (batch.map Event.slot) ≠ [] := List.cons_ne_nil _ _
  have hlines := eventLines_event h hagent
  refine ⟨hsent, fun buf => ?_, fun post => ?_, lines_parse h hagent⟩
  · have hshort := (length_le_escape agentId.1).trans hagent.short
    exact receive_agent rfl (List.length_pos_iff.mpr hagent.ne) (hshort.trans (by decide))
  · have hpost := @writeTraffic_eq parseBody post (fun _ => noEnrichers) _ (some agentId) _ hbody
      hparse
    rw [hlines] at hpost
    refine hpost (batch_fits h hagent hlen) fun hnil => ?_
    obtain ⟨e, es, rfl⟩ := List.exists_cons_of_ne_nil hne
    exact unlex_ne_nil _ _ (List.append_eq_nil_iff.mp hnil).1

/-! ## Runs -/

section Runs

variable {R : Type} [Double R] {cfg : PipelineConfig} {s0 t : Pipeline R}
  {tr : List (PipelineStep R)}

/-- In every run of the agent with batches of up to 53 events, each batch that is sent arrives
as the points of its events. The points of the batches, and of the batch still held, are those of
the events taken from `rb_evt`, in order. -/
theorem run_delivers (h0 : IsLaunch s0) (hnew : s0.analyzer.suspects.used = [])
    (h : Lts.Run (pipelineLts R cfg) s0 tr t) (hsize : cfg.batchSize ≤ 53)
    (hagent : AgentName agentId) :
    (∀ batch ∈ sentBatches tr, Delivered agentId batch) ∧
      (sentBatches tr).flatMap (List.map (Event.point agentId)) ++
          t.batch.map (Event.point agentId) =
        (tr.flatMap PipelineStep.popped).map (Event.point agentId) := by
  refine ⟨fun batch hb => ?_, ?_⟩
  · obtain ⟨hne, hlen, hsendable⟩ := run_sendable h0 hnew h hb
    exact batch_delivered hne hsendable hagent (hlen.trans hsize)
  · rw [← run_inOrder h0 h, List.map_append, List.map_flatten, List.flatMap_def]

end Runs

theorem agent1_name : AgentName agent1 := by
  refine ⟨?_, by decide, by decide⟩
  unfold Token
  decide

/-- Two events sent in one batch after an outage. -/
theorem run_delivers_outage :
    ∃ (tr : List (PipelineStep ℝ)) (t : Pipeline ℝ),
      Lts.Run (pipelineLts ℝ smallPipeline) (.launch 2) tr t ∧
        (sentBatches tr).map List.length = [2] ∧
        ∀ batch ∈ sentBatches tr, Delivered agent1 batch := by
  have hok : ((pipelineLts ℝ smallPipeline).exec (.launch 2) brokerOutage).map
      (fun r => (sentBatches r.1).map List.length) = some [2] := by decide +kernel
  obtain ⟨tr, t, hrun, hsent⟩ := Lts.run_of_exec hok
  exact ⟨tr, t, hrun, hsent,
    (run_delivers (launch_isLaunch 2) rfl hrun (by decide) agent1_name).1⟩

end TrafficAnalyzer
